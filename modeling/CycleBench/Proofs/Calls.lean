import CycleBench.Model.Observation

/-!
Calls on a model, as data. A model cannot tell how it was reached, so what a testbench does to
it is the list of calls it makes:

* `Drive`: the calls that set a pin or evaluate, and `drives`, their effect in a row;
* `Recorded`: a model around any other that passes every call on and writes it down;
* `drives_recorded`: driving the recorder drives the model inside and writes down just that;
* `ReadOnly`: models that stay as they are when an output is read, so that no onlooker changes
  them (`Observation.run_snd`);
* `PassesReads`: ways to wrap a model that an onlooker cannot tell from the model inside
  (`Observation.run_wrapped`).
-/

namespace CycleBench

/-! ## Driving calls -/

inductive Drive where
  | setReset (level : Bool)
  | setClock (level : Bool)
  | eval
deriving DecidableEq

variable {σ : Type} [Model σ]

def Drive.apply (model : σ) : Drive → σ
  | setReset level => Model.setReset level model
  | setClock level => Model.setClock level model
  | eval => Model.eval model

/-- The model after driving calls in their order. -/
def drives (calls : List Drive) (model : σ) : σ :=
  calls.foldl Drive.apply model

theorem drives_append (first second : List Drive) (model : σ) :
    drives (first ++ second) model = drives second (drives first model) :=
  List.foldl_append

/-! ## The recorder -/

/-- Any call on a model. -/
inductive Call where
  | drive (call : Drive)
  | resultCode
  | causeCode
  | trapRecord
deriving DecidableEq

/-- A model that passes every call on and keeps the list of all calls so far. -/
structure Recorded (σ : Type) where
  inner : σ
  calls : List Call := []

namespace Recorded

/-- The recorder after a call that has left this model inside. -/
def after (recorded : Recorded σ) (call : Call) (inner : σ) : Recorded σ :=
  ⟨inner, recorded.calls ++ [call]⟩

instance : Model (Recorded σ) where
  setClock level model :=
    model.after (.drive (.setClock level)) (Model.setClock level model.inner)
  setReset level model :=
    model.after (.drive (.setReset level)) (Model.setReset level model.inner)
  eval model := model.after (.drive .eval) (Model.eval model.inner)
  resultCode model := (Model.resultCode model.inner).map id (model.after .resultCode)
  causeCode model := (Model.causeCode model.inner).map id (model.after .causeCode)
  trapRecord model := (Model.trapRecord model.inner).map id (model.after .trapRecord)

theorem apply_recorded (recorded : Recorded σ) (call : Drive) :
    call.apply recorded = recorded.after (.drive call) (call.apply recorded.inner) := by
  cases call <;> rfl

/-- **The recorder is faithful.** -/
theorem drives_recorded (calls : List Drive) (recorded : Recorded σ) :
    drives calls recorded =
      ⟨drives calls recorded.inner, recorded.calls ++ calls.map Call.drive⟩ := by
  induction calls generalizing recorded with
  | nil => simp [drives]
  | cons call calls ih =>
    change drives calls (call.apply recorded) = _
    rw [ih, apply_recorded]
    simp [after, drives]

end Recorded

/-! ## Models that do not notice a read -/

/-- Reading an output leaves the model as it is. -/
class ReadOnly (σ : Type) [Model σ] : Prop where
  resultCode_snd : ∀ model : σ, (Model.resultCode model).2 = model
  causeCode_snd : ∀ model : σ, (Model.causeCode model).2 = model
  trapRecord_snd : ∀ model : σ, (Model.trapRecord model).2 = model

theorem Observation.run_snd [ReadOnly σ] {α : Type} (observation : Observation α) (model : σ) :
    (observation.run model).2 = model := by
  induction observation generalizing model with
  | done conclusion => rfl
  | readResult next ih => exact (ih _ _).trans (ReadOnly.resultCode_snd model)
  | readCause next ih => exact (ih _ _).trans (ReadOnly.causeCode_snd model)
  | readTrap next ih => exact (ih _ _).trans (ReadOnly.trapRecord_snd model)

/-! ## Models around models -/

variable {τ : Type} [Model τ]

/-- A model that is wrapped so answers every read as the model inside does, and stays wrapped. -/
structure PassesReads (wrap : σ → τ) : Prop where
  resultCode : ∀ model, Model.resultCode (wrap model) = (Model.resultCode model).map id wrap
  causeCode : ∀ model, Model.causeCode (wrap model) = (Model.causeCode model).map id wrap
  trapRecord : ∀ model, Model.trapRecord (wrap model) = (Model.trapRecord model).map id wrap

theorem Observation.run_wrapped {wrap : σ → τ} (h : PassesReads wrap) {α : Type}
    (observation : Observation α) (model : σ) :
    observation.run (wrap model) = (observation.run model).map id wrap := by
  induction observation generalizing model with
  | done conclusion => rfl
  | readResult next ih =>
    simp only [run, h.resultCode]
    exact ih _ _
  | readCause next ih =>
    simp only [run, h.causeCode]
    exact ih _ _
  | readTrap next ih =>
    simp only [run, h.trapRecord]
    exact ih _ _

end CycleBench
