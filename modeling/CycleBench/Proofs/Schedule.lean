import CycleBench.Proofs.Calls
import CycleBench.Proofs.Counters

/-!
The schedule of a run. At every time the bench sets the reset pin, then the clock pin, and then
evaluates, with levels that depend on the time alone. An onlooker that leaves the model as it
is makes no difference (`model_steps_start`), so the model at the end of a run is the fold of
the schedule over the model at its start, and a recorder sees these calls and one sampling of
the outputs (`run_follows_schedule`).
-/

namespace CycleBench.Testbench

variable {σ π : Type} [Model σ] [Probe π]

/-- The calls of the first `n` steps of a run. -/
def schedule (bench : Testbench) (n : Nat) : List Drive :=
  (List.range n).flatMap fun t =>
    [.setReset (bench.reset.polarity.level (t < bench.reset.window)), .setClock (t % 2 = 0), .eval]

theorem schedule_succ (bench : Testbench) (n : Nat) :
    bench.schedule (n + 1) = bench.schedule n ++
      [.setReset (bench.reset.polarity.level (n < bench.reset.window)), .setClock (n % 2 = 0),
        .eval] := by
  simp [schedule, List.range_succ]

theorem length_schedule (bench : Testbench) (n : Nat) : (bench.schedule n).length = 3 * n := by
  induction n with
  | zero => rfl
  | succ n ih =>
    rw [schedule_succ, List.length_append, ih]
    rfl

/-- The smallest run with a released reset, here active at the low level. -/
example :
    let bench : Testbench := ⟨{ maxSimTime := 2, reset := ⟨1, .activeLow⟩ }, by decide, by decide⟩
    bench.schedule 2 =
      [.setReset false, .setClock true, .eval, .setReset true, .setClock false, .eval] := rfl

/-- What a bench drives in the step at time `t` of a run. -/
def stepAt (bench : Testbench) (t : Nat) : StepInfo :=
  { time := t
    clock := t % 2 = 0
    resetLevel := bench.reset.polarity.level (t < bench.reset.window)
    resetAsserted := t < bench.reset.window
    risingEdge := t % 2 = 0 }

theorem drive_stateAt (bench : Testbench) (t : Nat) :
    bench.drive (bench.stateAt t) = bench.stepAt t := by
  rcases Nat.mod_two_eq_zero_or_one t with h | h <;>
    simp [drive, stateAt, stepAt, Reset.isAsserted, Clock.risesNext, Clock.isRisingEdge,
      Clock.step, Clock.toggle, h]

/-- No look of such a probe changes such a model. -/
def Unnoticed (σ π : Type) [Model σ] [Probe π] : Prop :=
  ∀ (info : StepInfo) (probe : π) (model : σ), ((Probe.onStep info probe).run model).2 = model

theorem unnoticed_noProbe : Unnoticed σ NoProbe :=
  fun _ _ _ => rfl

theorem unnoticed_readOnly [ReadOnly σ] : Unnoticed σ π :=
  fun info probe model => Observation.run_snd (Probe.onStep info probe) model

/-- The loop hands the model exactly the calls of the schedule. -/
theorem model_steps_start (h : Unnoticed σ π) (bench : Testbench) (n : Nat) (model : σ)
    (probe : π) (log : Log) :
    (bench.steps n { model, probe, log }).model = drives (bench.schedule n) model := by
  induction n with
  | zero => rfl
  | succ n ih =>
    have hdrive : bench.drive (bench.steps n { model, probe, log }).state = bench.stepAt n := by
      rw [state_steps_start, drive_stateAt]
    rw [steps_succ_last, schedule_succ, drives_append, ← ih]
    change ((Probe.onStep _ _).run (apply (bench.drive _) _)).2 = _
    rw [h, hdrive]
    rfl

/-- A run ends with one look at the model that the schedule leaves. -/
theorem model_runWith (h : Unnoticed σ π) (bench : Testbench) (model : σ) (probe : π)
    (log : Log) :
    ((bench.runWith model probe log).outcome.trap, (bench.runWith model probe log).model) =
      Model.trapRecord (drives (bench.schedule bench.config.maxSimTime) model) := by
  simp only [runWith, model_steps_start h]

/-- **A run follows its schedule.** A recorder around the model sees the calls of the schedule
and then one sampling of the outputs, which gives the trap of the outcome; single steps from a
new loop state come to the same. -/
theorem run_follows_schedule (bench : Testbench) (model : σ) (log : Log) :
    let bound := bench.config.maxSimTime
    let finished := bench.run model log
    let recorded := bench.run (Recorded.mk model []) log
    let last := drives (bench.schedule bound) model
    let rig := bench.steps bound { model, probe := NoProbe.mk, log }
    (bench.schedule bound).length = 3 * bound ∧
    recorded.model.calls = (bench.schedule bound).map Call.drive ++ [Call.trapRecord] ∧
    recorded.model.inner = finished.model ∧
    recorded.outcome = finished.outcome ∧
    (finished.outcome.trap, finished.model) = Model.trapRecord last ∧
    rig.model = last ∧
    rig.state.simTime = finished.outcome.simTime ∧
    rig.state.posedges = finished.outcome.posedges ∧
    rig.state.stats = finished.outcome.stats := by
  intro bound finished recorded last rig
  have hlast : (finished.outcome.trap, finished.model) = Model.trapRecord last :=
    model_runWith unnoticed_noProbe bench model NoProbe.mk log
  have hrecorded : (recorded.outcome.trap, recorded.model) = ((Model.trapRecord last).1,
      ⟨(Model.trapRecord last).2, (bench.schedule bound).map Call.drive ++ [Call.trapRecord]⟩) := by
    have h := model_runWith unnoticed_noProbe bench (Recorded.mk model []) NoProbe.mk log
    rw [Recorded.drives_recorded] at h
    exact h
  obtain ⟨htrap, hmodel⟩ := Prod.mk.inj hrecorded
  have houtcome : recorded.outcome = finished.outcome := by
    have h : recorded.outcome.trap = finished.outcome.trap := by rw [htrap, ← hlast]
    calc recorded.outcome
      _ = bench.outcomeOf recorded.outcome.trap := outcome_runWith ..
      _ = bench.outcomeOf finished.outcome.trap := by rw [h]
      _ = finished.outcome := (outcome_runWith ..).symm
  have hstate : rig.state = bench.stateAt bound :=
    bench.state_steps_start bound model NoProbe.mk log
  have hfinished : finished.outcome = bench.outcomeOf finished.outcome.trap := outcome_runWith ..
  refine ⟨bench.length_schedule bound, ?_, ?_, houtcome, hlast,
    model_steps_start unnoticed_noProbe bench bound model NoProbe.mk log, ?_⟩
  · rw [hmodel]
  · rw [hmodel, ← hlast]
  · rw [hstate, hfinished]
    exact ⟨rfl, rfl, rfl⟩

end CycleBench.Testbench
