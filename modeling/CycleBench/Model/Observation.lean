import CycleBench.Model

/-!
Observations: what an onlooker may do with a model, which is to read its outputs, each read
chosen by the answers so far, and to conclude. It cannot touch the pins or evaluate.
-/

namespace CycleBench

inductive Observation (α : Type) where
  | done (conclusion : α)
  | readResult (next : Int8 → Observation α)
  | readCause (next : Int8 → Observation α)
  | readTrap (next : TrapRecord → Observation α)

namespace Observation

/-- Reads the trap and concludes with it. -/
def trap : Observation TrapRecord :=
  readTrap done

/-- The same questions with another conclusion. -/
def map {α β : Type} (f : α → β) : Observation α → Observation β
  | done conclusion => done (f conclusion)
  | readResult next => readResult fun answer => (next answer).map f
  | readCause next => readCause fun answer => (next answer).map f
  | readTrap next => readTrap fun answer => (next answer).map f

/-- Asks the questions of a model in their order. -/
@[specialize]
def run {α σ : Type} [Model σ] : Observation α → σ → α × σ
  | done conclusion, model => (conclusion, model)
  | readResult next, model =>
    let answer := Model.resultCode model
    (next answer.1).run answer.2
  | readCause next, model =>
    let answer := Model.causeCode model
    (next answer.1).run answer.2
  | readTrap next, model =>
    let answer := Model.trapRecord model
    (next answer.1).run answer.2

end Observation

end CycleBench
