/-!
Reset: held from time zero for a window and then released. The time alone decides whether
reset is in effect, and the polarity alone which level the pin takes.
-/

namespace CycleBench

/-- Which level of the reset pin means "in reset". -/
inductive Polarity where
  | activeHigh
  | activeLow
deriving DecidableEq, Inhabited

namespace Polarity

/-- The level that stands for the given reset state. -/
def level : Polarity → Bool → Bool
  | activeHigh, asserted => asserted
  | activeLow, asserted => !asserted

/-- The reset state that a sampled level stands for. -/
def isAsserted : Polarity → Bool → Bool
  | activeHigh, level => level
  | activeLow, level => !level

def opposite : Polarity → Polarity
  | activeHigh => activeLow
  | activeLow => activeHigh

def name : Polarity → String
  | activeHigh => "ActiveHigh"
  | activeLow => "ActiveLow"

end Polarity

structure Reset where
  /-- Number of time units, from zero, during which reset is in effect. -/
  window : Nat := 100
  polarity : Polarity := .activeHigh
deriving DecidableEq, Inhabited

namespace Reset

def isAsserted (reset : Reset) (time : Nat) : Bool :=
  time < reset.window

/-- The level of the reset pin at a time. -/
def level (reset : Reset) (time : Nat) : Bool :=
  reset.polarity.level (reset.isAsserted time)

end Reset

end CycleBench
