import CycleBench.Event
import CycleBench.Model.Observation

/-!
Probes: onlookers that see every step of a run after the model has been evaluated. The tracer
reports rising edges and output changes, and the sampler keeps a verdict every few edges.
-/

namespace CycleBench

/-- What the testbench drove during one step. -/
structure StepInfo where
  time : Nat
  clock : Bool
  resetLevel : Bool
  resetAsserted : Bool
  risingEdge : Bool
deriving DecidableEq, Inhabited

class Probe (π : Type) where
  /-- The probe after a step, and the events it reports. -/
  onStep : StepInfo → π → Observation (π × List Event)

/-- The probe that looks at nothing. -/
structure NoProbe where

instance : Probe NoProbe where
  onStep _ probe := .done (probe, [])

/-- Reports each rising edge, and the outputs when they differ from those last seen. -/
structure ChangeTracer where
  last : Option TrapRecord := none

namespace ChangeTracer

def report (step : StepInfo) (last : Option TrapRecord) (trap : TrapRecord) : List Event :=
  let edge := if step.risingEdge then [Event.risingEdge step.time step.resetAsserted trap] else []
  let change := if last = some trap then [] else [Event.outputsChanged step.time trap]
  edge ++ change

instance : Probe ChangeTracer where
  onStep step tracer := Observation.trap.map fun trap =>
    (⟨some trap⟩, report step tracer.last trap)

end ChangeTracer

structure VerdictSample where
  time : Nat
  trap : TrapRecord
deriving DecidableEq

def VerdictSample.verdict (sample : VerdictSample) : Verdict :=
  sample.trap.verdict

/-- Keeps the outputs at every `period`-th rising edge. -/
structure VerdictSampler where
  period : Nat
  edges : Nat := 0
  samples : Array VerdictSample := #[]
  period_pos : 0 < period

namespace VerdictSampler

/-- A period of zero counts as one. -/
def new (period : Nat) : VerdictSampler :=
  { period := max period 1, period_pos := by omega }

instance : Probe VerdictSampler where
  onStep step sampler :=
    if step.risingEdge then
      let sampler := { sampler with edges := sampler.edges + 1 }
      if sampler.edges % sampler.period = 0 then
        Observation.trap.map fun trap =>
          ({ sampler with samples := sampler.samples.push ⟨step.time, trap⟩ }, [])
      else .done (sampler, [])
    else .done (sampler, [])

/-- The time of the first sample with a verdict. -/
def first? (sampler : VerdictSampler) (verdict : Verdict) : Option Nat :=
  (sampler.samples.toList.find? (·.verdict = verdict)).map (·.time)

end VerdictSampler

end CycleBench
