import CycleBench.Binary64.Decimal
import CycleBench.Stats

/-!
The table of statistics printed after a run. Two of its lines depend on the time the run took
on the host; where that time is withheld they show a mark.
-/

namespace CycleBench.Stats

def doubleRule : String :=
  String.ofList (List.replicate 58 '=') ++ "\n"

def singleRule : String :=
  String.ofList (List.replicate 58 '-') ++ "\n"

/-- A quotient of two counts and a factor, each step rounded to binary64. -/
def quotient? (num den factor : Nat) : Option Binary64 := do
  let ratio ← (← Binary64.ofRatio num 1).div (← Binary64.ofRatio den 1)
  ratio.mul (← Binary64.ofRatio factor 1)

def fixedText (places : Nat) : Option Binary64 → String
  | some x => x.textFixed places
  | none => "inf"

/-- The share of steps in reset, in percent; no steps count as one. -/
def resetShare (stats : Stats) : String :=
  fixedText 2 (quotient? stats.resetSteps (max stats.simTime 1) 100)

/-- The time on the host in seconds. -/
def hostSeconds : Option Nat → String
  | some nanoseconds => fixedText 4 (Binary64.ofRatio nanoseconds (Nat.pow 10 9))
  | none => "#"

/-- Simulated cycles per millisecond on the host. -/
def hostFrequency (stats : Stats) : Option Nat → String
  | some nanoseconds =>
    if nanoseconds = 0 then "0.00"
    else fixedText 2 (Binary64.ofRatio (stats.posedges * Nat.pow 10 6) nanoseconds)
  | none => "#"

def summaryPart (stats : Stats) (host : Option Nat) : String :=
  "\n" ++ doubleRule ++ "TESTBENCH RUN STATISTICS\n" ++ doubleRule ++
    "host_seconds             " ++ hostSeconds host ++ " s\n" ++
    "sim_time                 " ++ toString stats.simTime ++ "\n" ++
    "sim_cycles               " ++ toString stats.posedges ++ "\n" ++
    "sim_freq                 " ++ hostFrequency stats host ++ " kHz\n" ++ singleRule

def resetPart (stats : Stats) : String :=
  "RESET\n" ++
    "  reset.steps            " ++ toString stats.resetSteps ++
      " (" ++ stats.resetShare ++ "%)\n" ++
    "  cycles.active          " ++ toString stats.activePosedges ++ "\n"

/-- The wanted sections in their order, and a closing rule; `host` is the time on the host in
nanoseconds, if it is to be shown. -/
def table (stats : Stats) (host : Option Nat) (names : List String) : String :=
  (if StatsSection.summary.isWanted names then stats.summaryPart host else "") ++
    (if StatsSection.reset.isWanted names then stats.resetPart else "") ++ doubleRule

end CycleBench.Stats
