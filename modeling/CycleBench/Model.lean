import CycleBench.Trap

/-!
Models: anything with a clock pin, a reset pin, an evaluation step and two outputs. A read of
an output gives the model back, because a model may notice that it was read.
-/

namespace CycleBench

class Model (σ : Type) where
  setClock : Bool → σ → σ
  setReset : Bool → σ → σ
  /-- Settles the model for the current pins. -/
  eval : σ → σ
  resultCode : σ → Int8 × σ
  causeCode : σ → Int8 × σ
  /-- Both outputs; unless a model says otherwise, the result register is read first. -/
  trapRecord : σ → TrapRecord × σ := fun model =>
    let result := resultCode model
    let cause := causeCode result.2
    (⟨result.1, cause.1⟩, cause.2)

end CycleBench
