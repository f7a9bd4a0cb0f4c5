import CycleBench.Model.Wrapped
import CycleBench.Proofs.RunLog

/-!
Enclosed models. An enclosure passes every call on, so whatever is done to it is done to the model
inside:

* `PassesCalls`: ways to wrap a model so that every call reaches it and gets its own answer, among
  them any number of enclosures (`passesCalls_enclose`);
* `step_around`, `Turn.take_around`, `runWith_around`: what a testbench does to a wrapped model is
  what it does to the model, wrapped;
* `calls_steps`, `calls_runWith`: the calls that a model gets, those of a probe among them;
* `enclosures_are_invisible`: all of this together.
-/

namespace CycleBench

variable {σ τ υ π : Type} [Model σ] [Model τ] [Model υ] [Probe π]

/-! ## Enclosures around enclosures -/

/-- A model with a number of enclosures around it. -/
def Nested (σ : Type) : Nat → Type
  | 0 => σ
  | depth + 1 => Enclosed (Nested σ depth)

instance Nested.model : (depth : Nat) → Model (Nested σ depth)
  | 0 => inferInstanceAs (Model σ)
  | depth + 1 =>
    let _ : Model (Nested σ depth) := Nested.model depth
    inferInstanceAs (Model (Enclosed (Nested σ depth)))

def enclose : (depth : Nat) → σ → Nested σ depth
  | 0, model => model
  | depth + 1, model => ⟨enclose depth model⟩

/-- A model that is wrapped so does on every call what the model inside does, and stays wrapped. -/
structure PassesCalls (wrap : σ → τ) : Prop extends PassesReads wrap where
  drive : ∀ (call : Drive) (model : σ), call.apply (wrap model) = wrap (call.apply model)

theorem passesCalls_id : PassesCalls (id : σ → σ) where
  resultCode _ := rfl
  causeCode _ := rfl
  trapRecord _ := rfl
  drive _ _ := rfl

theorem passesCalls_enclosed : PassesCalls (Enclosed.mk : σ → Enclosed σ) where
  resultCode _ := rfl
  causeCode _ := rfl
  trapRecord _ := rfl
  drive call model := by cases call <;> rfl

theorem PassesCalls.comp {outer : τ → υ} {inner : σ → τ} (houter : PassesCalls outer)
    (hinner : PassesCalls inner) : PassesCalls (outer ∘ inner) where
  resultCode model := by
    rw [Function.comp_apply, houter.resultCode, hinner.resultCode]
    rfl
  causeCode model := by
    rw [Function.comp_apply, houter.causeCode, hinner.causeCode]
    rfl
  trapRecord model := by
    rw [Function.comp_apply, houter.trapRecord, hinner.trapRecord]
    rfl
  drive call model := by simp only [Function.comp_apply, houter.drive, hinner.drive]

theorem passesCalls_enclose (depth : Nat) : PassesCalls (enclose depth : σ → Nested σ depth) := by
  induction depth with
  | zero => exact passesCalls_id
  | succ depth ih => exact passesCalls_enclosed.comp ih

/-! ## Testbenches and wrapped models -/

/-- The rig with its model wrapped. -/
def Rig.around (wrap : σ → τ) (rig : Rig σ π) : Rig τ π :=
  { state := rig.state, model := wrap rig.model, probe := rig.probe, log := rig.log }

/-- The finished run with its model wrapped. -/
def Finished.around (wrap : σ → τ) (finished : Finished σ π) : Finished τ π :=
  { outcome := finished.outcome, model := wrap finished.model, probe := finished.probe
    log := finished.log }

/-- A single step as somebody else calls it, who may have changed the loop state, or taken another
one, and likewise the probe. -/
structure Turn (π : Type) where
  bench : Testbench
  prepare : LoopState × π → LoopState × π

def Turn.prepared (rig : Rig σ π) (turn : Turn π) : Rig σ π :=
  let ready := turn.prepare (rig.state, rig.probe)
  { state := ready.1, model := rig.model, probe := ready.2, log := rig.log }

def Turn.take (rig : Rig σ π) (turn : Turn π) : Rig σ π :=
  turn.bench.step (turn.prepared rig)

section Wrapped

variable {wrap : σ → τ} (h : PassesCalls wrap)

include h

namespace Testbench

theorem apply_wrapped (step : StepInfo) (model : σ) :
    apply step (wrap model) = wrap (apply step model) := by
  have hreset := h.drive (.setReset step.resetLevel) model
  have hclock := h.drive (.setClock step.clock) (Model.setReset step.resetLevel model)
  have heval := h.drive .eval (Model.setClock step.clock (Model.setReset step.resetLevel model))
  simp only [Drive.apply] at hreset hclock heval
  rw [apply, hreset, hclock, heval]
  rfl

theorem step_around (bench : Testbench) (rig : Rig σ π) :
    bench.step (rig.around wrap) = (bench.step rig).around wrap := by
  obtain ⟨state, model, probe, log⟩ := rig
  have hlook :
      (Probe.onStep (bench.drive state) probe).run (apply (bench.drive state) (wrap model)) =
        ((Probe.onStep (bench.drive state) probe).run
          (apply (bench.drive state) model)).map id wrap := by
    rw [apply_wrapped h, Observation.run_wrapped h.toPassesReads]
  simp only [Rig.around, step, hlook]
  rfl

theorem steps_around (bench : Testbench) (n : Nat) (rig : Rig σ π) :
    bench.steps n (rig.around wrap) = (bench.steps n rig).around wrap := by
  induction n generalizing rig with
  | zero => rfl
  | succ n ih =>
    rw [steps, step_around h, ih]
    rfl

theorem runWith_around (bench : Testbench) (model : σ) (probe : π) (log : Log) :
    bench.runWith (wrap model) probe log = (bench.runWith model probe log).around wrap := by
  have hsteps := bench.steps_around h bench.config.maxSimTime
    { model, probe, log := log.emit bench.startEvent }
  simp only [Rig.around] at hsteps
  simp only [runWith, hsteps, h.trapRecord]
  rfl

end Testbench

theorem Turn.take_around (rig : Rig σ π) (turn : Turn π) :
    Turn.take (rig.around wrap) turn = (Turn.take rig turn).around wrap :=
  turn.bench.step_around h (turn.prepared rig)

theorem Turn.foldl_take_around (turns : List (Turn π)) (rig : Rig σ π) :
    turns.foldl Turn.take (rig.around wrap) = (turns.foldl Turn.take rig).around wrap := by
  induction turns generalizing rig with
  | nil => rfl
  | cons turn turns ih => rw [List.foldl_cons, take_around h, ih, List.foldl_cons]

end Wrapped

/-! ## All calls on a model -/

/-- The calls that the questions of an onlooker are to a model, in their order. -/
def Observation.asked {α : Type} : Observation α → σ → List Call
  | done _, _ => []
  | readResult next, model =>
    let answer := Model.resultCode model
    .resultCode :: (next answer.1).asked answer.2
  | readCause next, model =>
    let answer := Model.causeCode model
    .causeCode :: (next answer.1).asked answer.2
  | readTrap next, model =>
    let answer := Model.trapRecord model
    .trapRecord :: (next answer.1).asked answer.2

/-- A recorder writes down just these. -/
theorem Observation.calls_run_recorded {α : Type} (observation : Observation α)
    (recorded : Recorded σ) :
    (observation.run recorded).2.calls = recorded.calls ++ observation.asked recorded.inner := by
  induction observation generalizing recorded with
  | done conclusion => exact (List.append_nil _).symm
  | readResult next ih => exact (ih _ _).trans (List.append_assoc ..)
  | readCause next ih => exact (ih _ _).trans (List.append_assoc ..)
  | readTrap next ih => exact (ih _ _).trans (List.append_assoc ..)

namespace Testbench

/-- The calls on the model of a rig in its next step: those of the bench and then those of the
probe. -/
def called (bench : Testbench) (rig : Rig σ π) : List Call :=
  let step := bench.drive rig.state
  (callsOf step).map Call.drive ++ (Probe.onStep step rig.probe).asked (apply step rig.model)

theorem calls_step (bench : Testbench) (rig : Rig (Recorded σ) π) :
    (bench.step rig).model.calls = rig.model.calls ++ bench.called (unrecorded rig) := by
  obtain ⟨state, recorded, probe, log⟩ := rig
  have hdriven : apply (bench.drive state) recorded =
      ⟨apply (bench.drive state) recorded.inner,
        recorded.calls ++ (callsOf (bench.drive state)).map Call.drive⟩ :=
    Recorded.drives_recorded (callsOf (bench.drive state)) recorded
  have hasked := (Probe.onStep (bench.drive state) probe).calls_run_recorded
    (apply (bench.drive state) recorded)
  refine hasked.trans ?_
  rw [hdriven, List.append_assoc]
  rfl

theorem calls_steps (bench : Testbench) (n : Nat) (rig : Rig (Recorded σ) π) :
    (bench.steps n rig).model.calls = rig.model.calls ++
      (List.range n).flatMap fun t => bench.called (bench.steps t (unrecorded rig)) := by
  induction n with
  | zero => exact (List.append_nil _).symm
  | succ n ih =>
    rw [steps_succ_last, calls_step, ih, unrecorded_steps, List.range_succ, List.flatMap_append,
      List.flatMap_singleton, List.append_assoc]

theorem calls_runWith (bench : Testbench) (model : σ) (probe : π) (log : Log) :
    (bench.runWith (Recorded.mk model []) probe log).model.calls =
      (List.range bench.config.maxSimTime).flatMap
        (fun t => bench.called (bench.rigAt model probe log t)) ++ [.trapRecord] := by
  have hsteps := bench.calls_steps bench.config.maxSimTime
    { model := Recorded.mk model [], probe, log := log.emit bench.startEvent }
  exact congrArg (· ++ [Call.trapRecord]) hsteps

end Testbench

theorem Turn.unrecorded_take (rig : Rig (Recorded σ) π) (turn : Turn π) :
    Testbench.unrecorded (Turn.take rig turn) = Turn.take (Testbench.unrecorded rig) turn :=
  turn.bench.unrecorded_step _

theorem Turn.unrecorded_foldl_take (turns : List (Turn π)) (rig : Rig (Recorded σ) π) :
    Testbench.unrecorded (turns.foldl Turn.take rig) =
      turns.foldl Turn.take (Testbench.unrecorded rig) := by
  induction turns generalizing rig with
  | nil => rfl
  | cons turn turns ih => rw [List.foldl_cons, ih, unrecorded_take, List.foldl_cons]

/-- **Enclosures are invisible.** A run of a model in any number of enclosures ends as the run of
the model itself, in its outcome, its probe, its log and the model inside; and the model inside gets
the same calls in the same order: step by step those of the bench and those of the probe, each
sampling as a sampling, and one sampling at the end. So it is for single steps, whoever calls them
and with whatever loop states and probes. -/
theorem enclosures_are_invisible (depth : Nat) (model : σ) :
    (∀ (bench : Testbench) (probe : π) (log : Log),
      let finished := bench.runWith model probe log
      let finished' := bench.runWith (enclose depth model) probe log
      let recorded := bench.runWith (Recorded.mk model []) probe log
      let recorded' := bench.runWith (enclose depth (Recorded.mk model [])) probe log
      (finished'.outcome = finished.outcome ∧ finished'.probe = finished.probe ∧
        finished'.log = finished.log ∧ finished'.model = enclose depth finished.model) ∧
      recorded.model.inner = finished.model ∧ recorded'.model = enclose depth recorded.model ∧
      recorded.model.calls = (List.range bench.config.maxSimTime).flatMap (fun t =>
        let rig := bench.rigAt model probe log t
        let step := bench.stepAt t
        [.drive (.setReset step.resetLevel), .drive (.setClock step.clock), .drive .eval] ++
          (Probe.onStep step rig.probe).asked (Testbench.apply step rig.model)) ++
        [.trapRecord]) ∧
    ∀ (turns : List (Turn π)) (state : LoopState) (probe : π) (log : Log),
      let rig := turns.foldl Turn.take { state, model, probe, log }
      let rig' := turns.foldl Turn.take { state, model := enclose depth model, probe, log }
      let recorded := turns.foldl Turn.take { state, model := Recorded.mk model [], probe, log }
      let recorded' := turns.foldl Turn.take
        { state, model := enclose depth (Recorded.mk model []), probe, log }
      (rig'.state = rig.state ∧ rig'.probe = rig.probe ∧ rig'.log = rig.log ∧
        rig'.model = enclose depth rig.model) ∧
      recorded.model.inner = rig.model ∧ recorded'.model = enclose depth recorded.model := by
  constructor
  · intro bench probe log finished finished' recorded recorded'
    have hfinished : finished' = finished.around (enclose depth) :=
      bench.runWith_around (passesCalls_enclose depth) model probe log
    have hrecorded : recorded' = recorded.around (enclose depth) :=
      bench.runWith_around (passesCalls_enclose depth) (Recorded.mk model []) probe log
    obtain ⟨-, hinner, -⟩ := bench.driving_recorded_runWith model probe log
    refine ⟨?_, hinner, congrArg Finished.model hrecorded, ?_⟩
    · rw [hfinished]
      exact ⟨rfl, rfl, rfl, rfl⟩
    · refine (bench.calls_runWith model probe log).trans ?_
      simp only [Testbench.called, Testbench.drive_rigAt]
      rfl
  · intro turns state probe log rig rig' recorded recorded'
    have hrig : rig' = rig.around (enclose depth) :=
      Turn.foldl_take_around (passesCalls_enclose depth) turns { state, model, probe, log }
    have hrecorded : recorded' = recorded.around (enclose depth) :=
      Turn.foldl_take_around (passesCalls_enclose depth) turns
        { state, model := Recorded.mk model [], probe, log }
    have hunrecorded : Testbench.unrecorded recorded = rig :=
      Turn.unrecorded_foldl_take turns { state, model := Recorded.mk model [], probe, log }
    refine ⟨?_, congrArg Rig.model hunrecorded, congrArg Rig.model hrecorded⟩
    rw [hrig]
    exact ⟨rfl, rfl, rfl, rfl⟩

/-- Through two enclosures and under a tracer, each sampling is one call on the model. -/
example :
    let bench : Testbench := ⟨{ maxSimTime := 1, reset := { window := 1 } }, by decide, by decide⟩
    let recorder := Recorded.mk (ScriptedCore.new {} .activeHigh) []
    let finished := bench.runWith (enclose 2 recorder) (ChangeTracer.mk none) ⟨none, #[]⟩
    finished.model.inner.inner.calls =
      [.drive (.setReset true), .drive (.setClock true), .drive .eval, .trapRecord, .trapRecord] :=
  rfl

end CycleBench
