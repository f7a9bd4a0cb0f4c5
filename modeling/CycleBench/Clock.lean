/-!
The clock: one level, toggled once per unit of simulated time, so a period is two units and
a rising edge comes on every other step.
-/

namespace CycleBench

/-- A free-running clock; it starts low. -/
structure Clock where
  level : Bool := false
deriving DecidableEq, Inhabited

namespace Clock

def toggle (level : Bool) : Bool :=
  !level

def isRisingEdge (previous current : Bool) : Bool :=
  !previous && current

def step (clock : Clock) : Clock :=
  ⟨toggle clock.level⟩

/-- Whether the next step of the clock is a rising edge. -/
def risesNext (clock : Clock) : Bool :=
  isRisingEdge clock.level clock.step.level

end Clock

end CycleBench
