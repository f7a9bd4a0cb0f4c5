import CycleBench.Proofs.Onlookers

/-!
Cores that have been used. Whatever is done to a core, it keeps its program and its polarity
(`design_eq_of_reaches`). A run begins in reset, which forgets all the rest, so from its first
step on the core keeps pace with the bench:

* `counts_in_lockstep`: the core has counted the active edges of the bench after every step;
* `run_erases_history`: a run on a core that has been used is a run on a new one.
-/

namespace CycleBench

/-! ## What is kept -/

namespace ScriptedCore

/-- What is settled when a core is made. -/
def design (core : ScriptedCore) : Program × Polarity :=
  (core.program, core.polarity)

theorem design_eval (core : ScriptedCore) : core.eval.design = core.design := by
  cases h : core.inReset with
  | true =>
    rw [eval_of_inReset core h]
    rfl
  | false =>
    rw [eval_of_active core h, latch]
    split <;> rfl

theorem design_apply (call : Drive) (core : ScriptedCore) :
    (call.apply core).design = core.design := by
  cases call with
  | setReset level => rfl
  | setClock level => rfl
  | eval => exact core.design_eval

theorem design_drives (calls : List Drive) (core : ScriptedCore) :
    (drives calls core).design = core.design := by
  induction calls generalizing core with
  | nil => rfl
  | cons call calls ih => exact (ih (call.apply core)).trans (design_apply call core)

/-- A core may become another by calls, by steps of any bench in any loop state, and by whole
runs on any bench, under any probe. -/
inductive Reaches (core : ScriptedCore) : ScriptedCore → Prop
  | refl : Reaches core core
  | call {later} (h : Reaches core later) (call : Drive) : Reaches core (call.apply later)
  | step {later} {π : Type} [Probe π] (h : Reaches core later) (bench : Testbench)
    (state : LoopState) (probe : π) (log : Log) :
    Reaches core (bench.step { state, model := later, probe, log }).model
  | run {later} {π : Type} [Probe π] (h : Reaches core later) (bench : Testbench) (probe : π)
    (log : Log) : Reaches core (bench.runWith later probe log).model

theorem design_eq_of_reaches {core later : ScriptedCore} (h : core.Reaches later) :
    later.design = core.design := by
  induction h with
  | refl => rfl
  | call _ call ih => exact (design_apply call _).trans ih
  | @step later _ _ _ bench state probe log ih =>
    have hmodel : (bench.step { state, model := later, probe, log }).model =
        drives (Testbench.callsOf (bench.drive state)) later := Observation.run_snd _ _
    rw [hmodel, design_drives, ih]
  | @run later _ _ _ bench probe log ih =>
    have hmodel : (bench.runWith later probe log).model = bench.lastModel later :=
      bench.model_runWith_alike alikeness_eq later probe log
    rw [hmodel, Testbench.lastModel, design_drives, ih]

end ScriptedCore

namespace Testbench

variable {π : Type} [Probe π]

/-! ## In lockstep -/

/-- **The core and the bench count alike.** From any core of the bench's polarity, and after any
number of steps of a run, the core has counted the active edges of the bench, has trapped once
they reach the latency out of reset, and shows its program's outputs exactly then. -/
theorem counts_in_lockstep (bench : Testbench) {core : ScriptedCore}
    (hp : core.polarity = bench.reset.polarity) {n : Nat} (hn : 0 < n) (probe : π) (log : Log) :
    let rig := bench.steps n { model := core, probe, log }
    rig.model.cycles = rig.state.stats.activePosedges ∧
    (rig.model.trapped = true ↔
      bench.reset.window < n ∧ core.program.latency ≤ rig.state.stats.activePosedges) ∧
    (Model.trapRecord rig.model).1 =
      if rig.model.trapped then ⟨core.program.resultCode, core.program.causeCode⟩
      else ⟨0, -1⟩ := by
  intro rig
  have hstate : rig.state = bench.stateAt n := bench.state_steps_start n core probe log
  have hmodel : rig.model = bench.coreAt core.program n := by
    rw [← bench.drives_schedule hn hp]
    exact bench.alike_steps_start alikeness_eq n core probe log
  rw [hstate, hmodel]
  exact ⟨rfl, decide_eq_true_iff, (bench.coreAt_sound core.program n).outputs_eq⟩

/-- A core that was left trapped, with its clock high, is in step after one evaluation, and traps
again with the first active edge. -/
theorem trapped_core_back_in_lockstep :
    let bench : Testbench := ⟨{ maxSimTime := 9, reset := ⟨1, .activeLow⟩ }, by decide, by decide⟩
    let core : ScriptedCore :=
      { program := ⟨3, 11, 1⟩, polarity := .activeLow, clockPin := true, lastClock := true,
        cycles := 7, trapped := true, outputs := ⟨3, 11⟩ }
    let rig := bench.steps 3 { model := core, probe := NoProbe.mk, log := { threshold := none } }
    core.polarity = bench.reset.polarity ∧ 0 < 3 ∧ rig.model.cycles = 1 ∧
      rig.model.trapped = true ∧ (Model.trapRecord rig.model).1 = ⟨3, 11⟩ := by
  intro bench core rig
  have hpolarity : core.polarity = bench.reset.polarity := rfl
  obtain ⟨hcycles, htrapped, houtputs⟩ := counts_in_lockstep bench hpolarity
    (by decide : 0 < 3) NoProbe.mk { threshold := none }
  have hedges : rig.state.stats.activePosedges = 1 := by decide
  have htrap : rig.model.trapped = true := htrapped.mpr ⟨by decide, hedges ▸ Nat.le_refl 1⟩
  exact ⟨hpolarity, by decide, hcycles.trans hedges, htrap, houtputs.trans (if_pos htrap)⟩

/-! ## Runs on used cores -/

/-- The program decides how a run on a core of the bench's polarity goes. -/
theorem runWith_eq_of_design_eq (bench : Testbench) {core core' : ScriptedCore}
    (hp : core.polarity = bench.reset.polarity) (hdesign : core'.design = core.design)
    (probe : π) (log log' : Log) :
    (bench.runWith core' probe log').outcome = (bench.runWith core probe log).outcome ∧
      (bench.runWith core' probe log').model = (bench.runWith core probe log).model ∧
      (bench.runWith core' probe log').probe = (bench.runWith core probe log).probe := by
  obtain ⟨hprogram, hpolarity⟩ := Prod.mk.inj hdesign
  have hcore {n : Nat} (hn : 0 < n) :
      drives (bench.schedule n) core' = drives (bench.schedule n) core := by
    rw [bench.drives_schedule hn hp, bench.drives_schedule hn (hpolarity.trans hp), hprogram]
  have hlast : bench.lastModel core' = bench.lastModel core := hcore bench.maxSimTime_pos
  -- the first look comes after the first evaluation, so no probe sees the cores as they were
  have hlook : bench.lookAt (π := π) core' = bench.lookAt core := by
    funext t seen
    rw [lookAt, lookAt, hcore (Nat.succ_pos t)]
  refine ⟨?_, ?_, ?_⟩
  · rw [bench.outcome_runWith_alike alikeness_eq, bench.outcome_runWith_alike alikeness_eq, hlast]
  · rw [bench.model_runWith_alike alikeness_eq core', hlast,
      ← bench.model_runWith_alike alikeness_eq core probe log]
  · rw [bench.probe_runWith alikeness_eq, bench.probe_runWith alikeness_eq, probeAt, hlook]
    rfl

/-- **A run erases the history of a core.** Two cores of one program and of the bench's polarity,
whatever was done to either, give the same outcome, are left in the same state, and show a probe
the same; so a run on a used core is one on a new core. -/
theorem run_erases_history (bench : Testbench) (program : Program) {core core' : ScriptedCore}
    (h : (ScriptedCore.new program bench.reset.polarity).Reaches core)
    (h' : (ScriptedCore.new program bench.reset.polarity).Reaches core')
    (probe : π) (log log' : Log) :
    let finished := bench.runWith core probe log
    let finished' := bench.runWith core' probe log'
    let fresh := bench.runWith (ScriptedCore.new program bench.reset.polarity) probe log
    (finished'.outcome = finished.outcome ∧ finished'.model = finished.model ∧
      finished'.probe = finished.probe) ∧
    finished.outcome = fresh.outcome ∧ finished.model = fresh.model ∧
      finished.probe = fresh.probe := by
  intro finished finished' fresh
  have hdesign := ScriptedCore.design_eq_of_reaches h
  have hdesign' := ScriptedCore.design_eq_of_reaches h'
  have hpolarity : core.polarity = bench.reset.polarity := (Prod.mk.inj hdesign).2
  exact ⟨bench.runWith_eq_of_design_eq hpolarity (hdesign'.trans hdesign.symm) probe log log',
    bench.runWith_eq_of_design_eq rfl hdesign probe log log⟩

/-- One core has trapped in a run of odd length, which left its clock high, and the other was
evaluated with no reset at all. -/
theorem used_cores_sample_alike :
    let program : Program := .passing 1
    let bench : Testbench := ⟨{ maxSimTime := 6, reset := ⟨1, .activeHigh⟩ }, by decide, by decide⟩
    let before : Testbench := ⟨{ maxSimTime := 5, reset := ⟨2, .activeHigh⟩ }, by decide, by decide⟩
    let new := ScriptedCore.new program .activeHigh
    let core := (before.run new { threshold := none }).model
    let core' := Drive.apply (Drive.apply new (.setClock true)) .eval
    let finished := bench.runWith core (VerdictSampler.new 1) { threshold := none }
    let finished' := bench.runWith core' (VerdictSampler.new 1) { threshold := some .trace }
    core.trapped = true ∧ core.clockPin = true ∧ core.lastClock = true ∧ core'.cycles = 1 ∧
      core' ≠ core ∧ new.Reaches core ∧ new.Reaches core' ∧
      finished'.outcome = finished.outcome ∧ finished'.model = finished.model ∧
      finished'.probe.samples = finished.probe.samples ∧ finished.probe.samples.size = 3 := by
  intro program bench before new core core' finished finished'
  have h : new.Reaches core := .run .refl before NoProbe.mk { threshold := none }
  have h' : new.Reaches core' := .call (.call .refl (.setClock true)) .eval
  obtain ⟨⟨houtcome, hmodel, hprobe⟩, -⟩ := run_erases_history bench program h h'
    (VerdictSampler.new 1) { threshold := none } { threshold := some .trace }
  exact ⟨by decide, by decide, by decide, by decide, by decide, h, h', houtcome, hmodel,
    congrArg VerdictSampler.samples hprobe, by decide⟩

end Testbench

end CycleBench
