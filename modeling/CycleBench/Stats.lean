import CycleBench.Failure

/-!
Statistics of a run: its counters, and the sections in which they can be printed.
-/

namespace CycleBench

structure Stats where
  simTime : Nat := 0
  /-- Rising clock edges. -/
  posedges : Nat := 0
  /-- Rising clock edges out of reset. -/
  activePosedges : Nat := 0
  /-- Steps in reset. -/
  resetSteps : Nat := 0
deriving DecidableEq, Inhabited

inductive StatsSection where
  | summary
  | reset
deriving DecidableEq

namespace StatsSection

def all : List StatsSection :=
  [summary, reset]

def name : StatsSection → String
  | summary => "summary"
  | reset => "reset"

def unknownFailure (name : String) : Failure :=
  .invalidConfiguration "stats_sections"
    ("unknown section '" ++ name ++ "' (expected one of: " ++
      ", ".intercalate (all.map StatsSection.name) ++ ")")

/-- Every name has to be one of a section; the first that is not is reported. -/
def check (names : List String) : Except Failure Unit :=
  match names.find? fun name => !(all.map StatsSection.name).contains name with
  | some unknown => .error (unknownFailure unknown)
  | none => .ok ()

/-- An empty list of names asks for every section. -/
def isWanted (part : StatsSection) (names : List String) : Bool :=
  names.isEmpty || names.contains part.name

end StatsSection

end CycleBench
