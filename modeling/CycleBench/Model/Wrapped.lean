import CycleBench.Model

/-!
Models around a model: an enclosure that passes every call on, and an adapter that inverts
the reset pin.
-/

namespace CycleBench

/-- An enclosure: every call reaches the model inside, which answers in its own way. -/
structure Enclosed (σ : Type) where
  inner : σ

/-- An adapter between a reset pin and a model that reads it with the other convention. -/
structure ResetInverted (σ : Type) where
  inner : σ

variable {σ : Type} [Model σ]

instance : Model (Enclosed σ) where
  setClock level model := ⟨Model.setClock level model.inner⟩
  setReset level model := ⟨Model.setReset level model.inner⟩
  eval model := ⟨Model.eval model.inner⟩
  resultCode model := (Model.resultCode model.inner).map id Enclosed.mk
  causeCode model := (Model.causeCode model.inner).map id Enclosed.mk
  trapRecord model := (Model.trapRecord model.inner).map id Enclosed.mk

instance : Model (ResetInverted σ) where
  setClock level model := ⟨Model.setClock level model.inner⟩
  setReset level model := ⟨Model.setReset (!level) model.inner⟩
  eval model := ⟨Model.eval model.inner⟩
  resultCode model := (Model.resultCode model.inner).map id ResetInverted.mk
  causeCode model := (Model.causeCode model.inner).map id ResetInverted.mk
  trapRecord model := (Model.trapRecord model.inner).map id ResetInverted.mk

end CycleBench
