import CycleBench.Proofs.CoreRun

/-!
Onlookers. A probe may only read outputs, so on a model that goes on the same way after a read a
run is the same under every probe:

* `Alikeness`: a relation between models that calls keep and reads respect. For a model that a
  read leaves as it is, equality is one (`alikeness_eq`);
* `driving_recorded_runWith`: under every probe a recorder is driven by the schedule alone;
* `probe_runWith`: a probe looks on once a step, at the model that the schedule has led to;
* `log_runWith`: what a run reports, in its order;
* `observation_does_not_interfere`: two runs whose bounds and resets agree end alike, whatever
  looks on and whatever is reported.
-/

namespace CycleBench

variable {σ π : Type} [Model σ] [Probe π]

/-! ## Models that are alike -/

/-- Calls keep models alike, alike models give the same answers, and a read leaves a model that is
like the one that was read. -/
structure Alikeness (Alike : σ → σ → Prop) : Prop where
  equivalence : Equivalence Alike
  drive : ∀ (call : Drive) {model other : σ},
    Alike model other → Alike (call.apply model) (call.apply other)
  resultCode_fst : ∀ {model other : σ}, Alike model other →
    (Model.resultCode model).1 = (Model.resultCode other).1
  causeCode_fst : ∀ {model other : σ}, Alike model other →
    (Model.causeCode model).1 = (Model.causeCode other).1
  trapRecord_fst : ∀ {model other : σ}, Alike model other →
    (Model.trapRecord model).1 = (Model.trapRecord other).1
  resultCode_snd : ∀ model : σ, Alike (Model.resultCode model).2 model
  causeCode_snd : ∀ model : σ, Alike (Model.causeCode model).2 model
  trapRecord_snd : ∀ model : σ, Alike (Model.trapRecord model).2 model

theorem alikeness_eq [ReadOnly σ] : Alikeness (Eq : σ → σ → Prop) where
  equivalence := eq_equivalence
  drive call _ _ h := h ▸ rfl
  resultCode_fst h := by rw [h]
  causeCode_fst h := by rw [h]
  trapRecord_fst h := by rw [h]
  resultCode_snd := ReadOnly.resultCode_snd
  causeCode_snd := ReadOnly.causeCode_snd
  trapRecord_snd := ReadOnly.trapRecord_snd

/-- A recorder notices reads, but all that it does is up to the model inside. -/
theorem Recorded.alikeness_inner [ReadOnly σ] :
    Alikeness fun model other : Recorded σ => model.inner = other.inner where
  equivalence := ⟨fun _ => rfl, Eq.symm, Eq.trans⟩
  drive call model other h := by
    rw [apply_recorded, apply_recorded]
    exact congrArg call.apply h
  resultCode_fst h := congrArg (fun inner : σ => (Model.resultCode inner).1) h
  causeCode_fst h := congrArg (fun inner : σ => (Model.causeCode inner).1) h
  trapRecord_fst h := congrArg (fun inner : σ => (Model.trapRecord inner).1) h
  resultCode_snd model := ReadOnly.resultCode_snd model.inner
  causeCode_snd model := ReadOnly.causeCode_snd model.inner
  trapRecord_snd model := ReadOnly.trapRecord_snd model.inner

namespace Alikeness

variable {Alike : σ → σ → Prop} (h : Alikeness Alike) {model other : σ}

include h

theorem drives (calls : List Drive) (hmodel : Alike model other) :
    Alike (CycleBench.drives calls model) (CycleBench.drives calls other) := by
  induction calls generalizing model other with
  | nil => exact hmodel
  | cons call calls ih => exact ih (h.drive call hmodel)

/-- Alike models are alike still when each has been read. -/
theorem reads {read read' : σ} (hmodel : Alike model other) (hread : Alike read model)
    (hread' : Alike read' other) : Alike read read' :=
  h.equivalence.trans hread (h.equivalence.trans hmodel (h.equivalence.symm hread'))

theorem run_fst {α : Type} (observation : Observation α) (hmodel : Alike model other) :
    (observation.run model).1 = (observation.run other).1 := by
  induction observation generalizing model other with
  | done conclusion => rfl
  | readResult next ih =>
    simp only [Observation.run, h.resultCode_fst hmodel]
    exact ih _ (h.reads hmodel (h.resultCode_snd model) (h.resultCode_snd other))
  | readCause next ih =>
    simp only [Observation.run, h.causeCode_fst hmodel]
    exact ih _ (h.reads hmodel (h.causeCode_snd model) (h.causeCode_snd other))
  | readTrap next ih =>
    simp only [Observation.run, h.trapRecord_fst hmodel]
    exact ih _ (h.reads hmodel (h.trapRecord_snd model) (h.trapRecord_snd other))

theorem run_snd {α : Type} (observation : Observation α) (model : σ) :
    Alike (observation.run model).2 model := by
  induction observation generalizing model with
  | done conclusion => exact h.equivalence.refl model
  | readResult next ih => exact h.equivalence.trans (ih _ _) (h.resultCode_snd model)
  | readCause next ih => exact h.equivalence.trans (ih _ _) (h.causeCode_snd model)
  | readTrap next ih => exact h.equivalence.trans (ih _ _) (h.trapRecord_snd model)

end Alikeness

/-! ## What a recorder sees -/

/-- The call, if it sets a pin or evaluates. -/
def Call.drive? : Call → Option Drive
  | drive call => some call
  | _ => none

/-- The calls among others that set a pin or evaluate. -/
def driving (calls : List Call) : List Drive :=
  calls.filterMap Call.drive?

theorem driving_append (first second : List Call) :
    driving (first ++ second) = driving first ++ driving second :=
  List.filterMap_append

/-- An onlooker learns the same through a recorder, and drives nothing. -/
theorem Observation.run_recorded {α : Type} (observation : Observation α)
    (recorded : Recorded σ) :
    (observation.run recorded).1 = (observation.run recorded.inner).1 ∧
      (observation.run recorded).2.inner = (observation.run recorded.inner).2 ∧
      driving (observation.run recorded).2.calls = driving recorded.calls := by
  induction observation generalizing recorded with
  | done conclusion => exact ⟨rfl, rfl, rfl⟩
  | readResult next ih =>
    obtain ⟨hfst, hinner, hcalls⟩ := ih _ (Model.resultCode recorded).2
    exact ⟨hfst, hinner, hcalls.trans (by simp [Model.resultCode, Recorded.after, driving,
      Call.drive?])⟩
  | readCause next ih =>
    obtain ⟨hfst, hinner, hcalls⟩ := ih _ (Model.causeCode recorded).2
    exact ⟨hfst, hinner, hcalls.trans (by simp [Model.causeCode, Recorded.after, driving,
      Call.drive?])⟩
  | readTrap next ih =>
    obtain ⟨hfst, hinner, hcalls⟩ := ih _ (Model.trapRecord recorded).2
    exact ⟨hfst, hinner, hcalls.trans (by simp [Model.trapRecord, Recorded.after, driving,
      Call.drive?])⟩

theorem ChangeTracer.target_report (step : StepInfo) (last : Option TrapRecord)
    (trap : TrapRecord) : ∀ e ∈ report step last trap, e.target = .probe := by
  intro e he
  obtain he | he := List.mem_append.mp he
  · obtain rfl := List.mem_singleton.mp (List.mem_ite_nil_right.mp he).2
    rfl
  · obtain rfl := List.mem_singleton.mp (List.mem_ite_nil_left.mp he).2
    rfl

theorem Log.extend_append (log : Log) (first second : List Event) :
    log.extend (first ++ second) = (log.extend first).extend second :=
  List.foldl_append

namespace Testbench

/-- The calls of a step, in their order. -/
def callsOf (step : StepInfo) : List Drive :=
  [.setReset step.resetLevel, .setClock step.clock, .eval]

/-- The rig with the recorder around its model taken away. -/
def unrecorded (rig : Rig (Recorded σ) π) : Rig σ π :=
  { state := rig.state, model := rig.model.inner, probe := rig.probe, log := rig.log }

theorem unrecorded_step (bench : Testbench) (rig : Rig (Recorded σ) π) :
    unrecorded (bench.step rig) = bench.step (unrecorded rig) := by
  obtain ⟨state, recorded, probe, log⟩ := rig
  obtain ⟨hfst, hinner, -⟩ := (Probe.onStep (bench.drive state) probe).run_recorded
    (apply (bench.drive state) recorded)
  simp only [unrecorded, step, hfst, hinner]
  rfl

theorem driving_step (bench : Testbench) (rig : Rig (Recorded σ) π) :
    driving (bench.step rig).model.calls =
      driving rig.model.calls ++ callsOf (bench.drive rig.state) := by
  obtain ⟨state, recorded, probe, log⟩ := rig
  have hcalls : (apply (bench.drive state) recorded).calls =
      recorded.calls ++ (callsOf (bench.drive state)).map Call.drive :=
    congrArg Recorded.calls (Recorded.drives_recorded (callsOf (bench.drive state)) recorded)
  obtain ⟨-, -, hdriving⟩ := (Probe.onStep (bench.drive state) probe).run_recorded
    (apply (bench.drive state) recorded)
  refine hdriving.trans ?_
  rw [hcalls, driving_append]
  rfl

theorem unrecorded_steps (bench : Testbench) (n : Nat) (rig : Rig (Recorded σ) π) :
    unrecorded (bench.steps n rig) = bench.steps n (unrecorded rig) := by
  induction n generalizing rig with
  | zero => rfl
  | succ n ih => exact (ih (bench.step rig)).trans (by rw [unrecorded_step]; rfl)

/-- What is driven in the step at time `n` depends on nothing that was seen before. -/
theorem drive_steps_start (bench : Testbench) (n : Nat) (model : σ) (probe : π) (log : Log) :
    bench.drive (bench.steps n { model, probe, log }).state = bench.stepAt n := by
  rw [state_steps_start, drive_stateAt]

/-- Under every probe the calls that drive the model are those of the schedule. -/
theorem driving_steps_start (bench : Testbench) (n : Nat) (model : σ) (probe : π) (log : Log) :
    driving (bench.steps n { model := Recorded.mk model [], probe, log }).model.calls =
      bench.schedule n := by
  induction n with
  | zero => rfl
  | succ n ih =>
    rw [steps_succ_last, driving_step, ih, drive_steps_start, schedule_succ]
    rfl

/-- **The recorder goes unnoticed**, and under every probe it is driven by the schedule alone. -/
theorem driving_recorded_runWith (bench : Testbench) (model : σ) (probe : π) (log : Log) :
    let finished := bench.runWith model probe log
    let recorded := bench.runWith (Recorded.mk model []) probe log
    driving recorded.model.calls = bench.schedule bench.config.maxSimTime ∧
      recorded.model.inner = finished.model ∧ recorded.outcome = finished.outcome ∧
      recorded.probe = finished.probe ∧ recorded.log = finished.log := by
  intro finished recorded
  let start : Rig (Recorded σ) π :=
    { model := ⟨model, []⟩, probe, log := log.emit bench.startEvent }
  let last := bench.steps bench.config.maxSimTime start
  have hlast : bench.steps bench.config.maxSimTime
      { model, probe, log := log.emit bench.startEvent } = unrecorded last :=
    (bench.unrecorded_steps _ start).symm
  have hdriving : driving last.model.calls = bench.schedule bench.config.maxSimTime :=
    bench.driving_steps_start _ model probe _
  refine ⟨?_, ?_, ?_, ?_, ?_⟩
  · have hcalls : driving recorded.model.calls = driving (last.model.calls ++ [.trapRecord]) := rfl
    rw [hcalls, driving_append, hdriving]
    exact List.append_nil _
  all_goals
    simp only [finished, runWith, hlast]
    rfl

/-! ## What a probe sees -/

variable {Alike : σ → σ → Prop}

/-- The loop leads the model to one like that of the schedule. -/
theorem alike_steps_start (h : Alikeness Alike) (bench : Testbench) (n : Nat) (model : σ)
    (probe : π) (log : Log) :
    Alike (bench.steps n { model, probe, log }).model (drives (bench.schedule n) model) := by
  induction n with
  | zero => exact h.equivalence.refl model
  | succ n ih =>
    rw [steps_succ_last, schedule_succ, drives_append]
    refine h.equivalence.trans (h.run_snd (Probe.onStep _ _) _) ?_
    rw [drive_steps_start]
    exact h.drives (callsOf (bench.stepAt n)) ih

/-- The look of a probe at time `t` of a run: the probe after it, and the events it reports. -/
def lookAt (bench : Testbench) (model : σ) (t : Nat) (probe : π) : π × List Event :=
  ((Probe.onStep (bench.stepAt t) probe).run (drives (bench.schedule (t + 1)) model)).1

/-- A probe after its looks at the first `n` steps. -/
def probeAt (bench : Testbench) (model : σ) (probe : π) (n : Nat) : π :=
  (List.range n).foldl (fun probe t => (bench.lookAt model t probe).1) probe

/-- What is reported at time `t` of a run: by the bench, and then by its probe. -/
def reportAt (bench : Testbench) (model : σ) (probe : π) (t : Nat) : List Event :=
  bench.events (bench.stepAt t) ++ (bench.lookAt model t (bench.probeAt model probe t)).2

theorem probeAt_succ (bench : Testbench) (model : σ) (probe : π) (n : Nat) :
    bench.probeAt model probe (n + 1) =
      (bench.lookAt model n (bench.probeAt model probe n)).1 := by
  simp [probeAt, List.range_succ]

/-- In the step at time `n` of a run, a probe learns what the schedule lets it learn. -/
theorem look_steps_start (h : Alikeness Alike) (bench : Testbench) (n : Nat) (model : σ)
    (probe seen : π) (log : Log) :
    let rig := bench.steps n { model, probe, log }
    ((Probe.onStep (bench.drive rig.state) seen).run (apply (bench.drive rig.state) rig.model)).1 =
      bench.lookAt model n seen := by
  intro rig
  have hdrive : bench.drive rig.state = bench.stepAt n :=
    bench.drive_steps_start n model probe log
  rw [hdrive, lookAt, schedule_succ, drives_append]
  exact h.run_fst _ (h.drives (callsOf (bench.stepAt n))
    (bench.alike_steps_start h n model probe log))

theorem probe_steps_start (h : Alikeness Alike) (bench : Testbench) (n : Nat) (model : σ)
    (probe : π) (log : Log) :
    (bench.steps n { model, probe, log }).probe = bench.probeAt model probe n := by
  induction n with
  | zero => rfl
  | succ n ih =>
    rw [steps_succ_last, probeAt_succ, ← ih, ← bench.look_steps_start h n model probe _ log]
    rfl

theorem log_steps_start (h : Alikeness Alike) (bench : Testbench) (n : Nat) (model : σ)
    (probe : π) (log : Log) :
    (bench.steps n { model, probe, log }).log =
      log.extend ((List.range n).flatMap (bench.reportAt model probe)) := by
  induction n with
  | zero => rfl
  | succ n ih =>
    have hlook := bench.look_steps_start h n model probe (bench.probeAt model probe n) log
    rw [← bench.probe_steps_start h n model probe log] at hlook
    have hreports : (List.range (n + 1)).flatMap (bench.reportAt model probe) =
        (List.range n).flatMap (bench.reportAt model probe) ++ bench.reportAt model probe n := by
      simp [List.range_succ]
    rw [steps_succ_last, hreports, Log.extend_append, ← ih, reportAt, Log.extend_append,
      ← bench.drive_steps_start n model probe log, ← bench.probe_steps_start h n model probe log,
      ← hlook]
    rfl

/-! ## Whole runs -/

/-- The model that a run leads to, before its outputs are sampled. -/
def lastModel (bench : Testbench) (model : σ) : σ :=
  drives (bench.schedule bench.config.maxSimTime) model

/-- What a run reports. -/
def reports (bench : Testbench) (model : σ) (probe : π) : List Event :=
  bench.startEvent ::
    (List.range bench.config.maxSimTime).flatMap (bench.reportAt model probe) ++
    [.runFinished bench.config.maxSimTime ((bench.config.maxSimTime + 1) / 2)
      (Model.trapRecord (bench.lastModel model)).1]

theorem outcome_runWith_alike (h : Alikeness Alike) (bench : Testbench) (model : σ) (probe : π)
    (log : Log) :
    (bench.runWith model probe log).outcome =
      bench.outcomeOf (Model.trapRecord (bench.lastModel model)).1 := by
  rw [outcome_runWith]
  exact congrArg bench.outcomeOf (h.trapRecord_fst (bench.alike_steps_start h _ model probe _))

theorem model_runWith_alike (h : Alikeness Alike) (bench : Testbench) (model : σ) (probe : π)
    (log : Log) : Alike (bench.runWith model probe log).model (bench.lastModel model) :=
  h.equivalence.trans (h.trapRecord_snd _) (bench.alike_steps_start h _ model probe _)

theorem probe_runWith (h : Alikeness Alike) (bench : Testbench) (model : σ) (probe : π)
    (log : Log) :
    (bench.runWith model probe log).probe =
      bench.probeAt model probe bench.config.maxSimTime :=
  bench.probe_steps_start h _ model probe _

theorem log_runWith (h : Alikeness Alike) (bench : Testbench) (model : σ) (probe : π)
    (log : Log) : (bench.runWith model probe log).log = log.extend (bench.reports model probe) := by
  have htrap := h.trapRecord_fst
    (bench.alike_steps_start h bench.config.maxSimTime model probe (log.emit bench.startEvent))
  simp only [runWith, htrap, bench.log_steps_start h, state_steps_start, reports,
    Log.extend_append]
  rfl

/-! ## Runs that differ in what is observed -/

theorem target_events (bench : Testbench) (step : StepInfo) :
    ∀ e ∈ bench.events step, e.target = .simulator := by
  intro e he
  have hkind : e = .resetReleased step.time bench.config.signals.reset ∨
      e = .stepped step.time step.clock step.resetLevel := by
    simp only [events] at he
    split_ifs at he <;> simp_all
  rcases hkind with rfl | rfl <;> rfl

/-- A probe that reports under its own target adds nothing else to what a run reports. -/
theorem filter_reports {model : σ} {probe : π} (bench : Testbench)
    (h : ∀ t seen, ∀ e ∈ (bench.lookAt model t (seen : π)).2, e.target = .probe) :
    (bench.reports model probe).filter (fun e => e.target ≠ .probe) =
      bench.reports model NoProbe.mk := by
  have hreport : ∀ t, (bench.reportAt model probe t).filter (fun e => e.target ≠ .probe) =
      bench.reportAt model NoProbe.mk t := by
    intro t
    have hown : (bench.events (bench.stepAt t)).filter (fun e => e.target ≠ .probe) =
        bench.events (bench.stepAt t) :=
      List.filter_eq_self.mpr fun e he => by rw [target_events bench _ e he]; rfl
    have hlook : (bench.lookAt model t (bench.probeAt model probe t)).2.filter
        (fun e => e.target ≠ .probe) = [] :=
      List.filter_eq_nil_iff.mpr fun e he => by simp [h t _ e he]
    rw [reportAt, List.filter_append, hown, hlook]
    rfl
  have hreports : ((List.range bench.config.maxSimTime).flatMap
      (bench.reportAt model probe)).filter (fun e => e.target ≠ .probe) =
      (List.range bench.config.maxSimTime).flatMap (bench.reportAt model NoProbe.mk) := by
    rw [List.filter_flatMap]
    simp only [hreport]
  rw [reports, List.cons_append, List.filter_cons_of_pos (by rfl), List.filter_append, hreports]
  rfl

/-- **Observation does not interfere.** Two runs from alike models, whose bounds and resets agree,
drive the model alike and end alike, whatever probe looks on, whatever the signals are called and
whatever is logged. A probe looks on once a step, and sees the model as it stands after the
evaluation of that step. What a tracer adds to the log is all reported by the tracer itself. -/
theorem observation_does_not_interfere {π' : Type} [Probe π'] (h : Alikeness Alike)
    {bench bench' : Testbench} (hbound : bench'.config.maxSimTime = bench.config.maxSimTime)
    (hreset : bench'.reset = bench.reset) {model model' : σ} (hmodel : Alike model' model)
    (probe : π) (probe' : π') (log log' : Log) :
    let bound := bench.config.maxSimTime
    let finished := bench.runWith model probe log
    let finished' := bench'.runWith model' probe' log'
    let recorded := bench.runWith (Recorded.mk model []) probe log
    let recorded' := bench'.runWith (Recorded.mk model' []) probe' log'
    (recorded.model.inner = finished.model ∧ recorded'.model.inner = finished'.model ∧
      driving recorded'.model.calls = driving recorded.model.calls) ∧
    (finished'.outcome = finished.outcome ∧ Alike finished'.model finished.model) ∧
    finished.probe = (List.range bound).foldl (fun probe t =>
      let step : StepInfo := {
        time := t, clock := t % 2 = 0, risingEdge := t % 2 = 0
        resetAsserted := t < bench.reset.window
        resetLevel := bench.reset.polarity.level (t < bench.reset.window) }
      ((Probe.onStep step probe).run (drives (bench.schedule (t + 1)) model)).1.1) probe ∧
    ∀ (tracer : ChangeTracer) (before : Log), (∀ e ∈ before.toList, e.target ≠ .probe) →
      (bench.runWith model tracer before).log.toList.filter (fun e => e.target ≠ .probe) =
        (bench.run model before).log.toList := by
  intro bound finished finished' recorded recorded'
  have hschedule : bench'.schedule = bench.schedule := by
    funext n
    simp only [schedule, hreset]
  have hlast : Alike (bench'.lastModel model') (bench.lastModel model) := by
    rw [lastModel, lastModel, hschedule, hbound]
    exact h.drives _ hmodel
  have houtcome : bench'.outcomeOf = bench.outcomeOf := by
    funext trap
    simp only [outcomeOf, stateAt, hreset, hbound]
  obtain ⟨hcalls, hinner, -⟩ := bench.driving_recorded_runWith model probe log
  obtain ⟨hcalls', hinner', -⟩ := bench'.driving_recorded_runWith model' probe' log'
  refine ⟨⟨hinner, hinner', ?_⟩, ⟨?_, ?_⟩, bench.probe_runWith h model probe log, ?_⟩
  · rw [hcalls, hcalls', hschedule, hbound]
  · calc finished'.outcome
      _ = bench'.outcomeOf (Model.trapRecord (bench'.lastModel model')).1 :=
        bench'.outcome_runWith_alike h model' probe' log'
      _ = bench.outcomeOf (Model.trapRecord (bench.lastModel model)).1 := by
        rw [houtcome, h.trapRecord_fst hlast]
      _ = finished.outcome := (bench.outcome_runWith_alike h model probe log).symm
  · exact h.reads hlast (bench'.model_runWith_alike h model' probe' log')
      (bench.model_runWith_alike h model probe log)
  · intro tracer before hbefore
    have hown : (bench.reports model tracer).filter (fun e => e.target ≠ .probe) =
        bench.reports model NoProbe.mk :=
      bench.filter_reports fun t seen => ChangeTracer.target_report _ seen.last _
    have hkeep : before.toList.filter (fun e => e.target ≠ .probe) = before.toList :=
      List.filter_eq_self.mpr fun e he => decide_eq_true (hbefore e he)
    rw [run, bench.log_runWith h, bench.log_runWith h, Log.toList_extend, Log.toList_extend,
      List.filter_append, hkeep, ← hown, List.filter_comm]

/-- A core that has been read once more than another, and notices it, runs as the other does. -/
theorem read_core_runs_alike :
    let core := ScriptedCore.new (.passing 1) .activeLow
    let bench : Testbench :=
      ⟨{ maxSimTime := 5, reset := ⟨1, .activeLow⟩ }, by decide, by decide⟩
    let bench' : Testbench :=
      ⟨{ maxSimTime := 5, reset := ⟨1, .activeLow⟩, signals := { clock := "ck" },
         traceSteps := true }, by decide, by decide⟩
    let finished := bench.runWith (Recorded.mk core []) (ChangeTracer.mk none)
      { threshold := some .trace }
    let finished' := bench'.runWith (Recorded.mk core [.trapRecord]) NoProbe.mk
      { threshold := some .debug }
    finished'.outcome = finished.outcome ∧ finished'.model.inner = finished.model.inner ∧
      finished'.model.calls ≠ finished.model.calls ∧ finished.outcome.verdict = .pass := by
  intro core bench bench' finished finished'
  have hbound : bench'.config.maxSimTime = bench.config.maxSimTime := rfl
  have hreset : bench'.reset = bench.reset := rfl
  have hmodel : (Recorded.mk core [.trapRecord]).inner = (Recorded.mk core []).inner := rfl
  obtain ⟨-, ⟨houtcome, halike⟩, -⟩ := observation_does_not_interfere Recorded.alikeness_inner
    hbound hreset hmodel (ChangeTracer.mk none) NoProbe.mk { threshold := some .trace }
    { threshold := some .debug }
  exact ⟨houtcome, halike, by decide, by decide⟩

end Testbench

end CycleBench
