import CycleBench.Failure
import CycleBench.Reset

/-!
Configurations of a testbench, and the two bounds that must not be zero.
-/

namespace CycleBench

/-- The names of the input pins, for the log. -/
structure SignalNames where
  clock : String := "clk"
  reset : String := "arst"
deriving DecidableEq, Inhabited

structure Config where
  /-- A run takes exactly this many steps. -/
  maxSimTime : Nat := 10000000
  reset : Reset := {}
  signals : SignalNames := {}
  /-- Report every step. -/
  traceSteps : Bool := false
deriving DecidableEq, Inhabited

namespace Config

def boundFailure (field : String) : Failure :=
  .invalidConfiguration field "must be greater than zero"

/-- A run must have steps, and reset must be held for some of them. -/
def validate (config : Config) : Except Failure Unit :=
  if config.maxSimTime = 0 then .error (boundFailure "max_sim_time")
  else if config.reset.window = 0 then .error (boundFailure "reset.window")
  else .ok ()

theorem pos_of_validate {config : Config} (h : config.validate = .ok ()) :
    0 < config.maxSimTime ∧ 0 < config.reset.window := by
  unfold validate at h
  split at h
  · cases h
  · split at h
    · cases h
    · omega

end Config

end CycleBench
