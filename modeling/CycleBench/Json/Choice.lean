import CycleBench.Json.Scalar

/-!
Named choices: a value that is one of a list of names, written as a string or as an object
with that name as its only key and `null` behind it.
-/

namespace CycleBench.Json

/-- The names of the choices and what they stand for, in the order in which they are listed. -/
abbrev Choices (α : Type) := List (String × α)

namespace Choices

variable {α : Type}

def choice? (choices : Choices α) (name : String) : Option α :=
  choices.lookup name

/-- Takes a name from behind its opening quote. -/
def name (choices : Choices α) : Reader α := do
  let name ← StringLiteral.decode
  match choices.choice? name with
  | some choice => return choice
  | none => .failHere (.unknownVariant name (choices.map (·.1)))

/-- Takes the object form from behind its opening brace. -/
def member (choices : Choices α) : Reader α := do
  match ← Reader.peek with
  | some '"' =>
    Reader.skip
    let choice ← choices.name
    Reader.colon
    null
    match ← Reader.peek with
    | some '}' =>
      Reader.skip
      return choice
    | some _ => .failHere .expectedValue
    | none => .failHere .endInObject
  | some '}' => .failNext .expectedValue
  | some _ => .failNext .keyNotString
  | none => .failNext .endInObject

def reader (choices : Choices α) : Reader α := do
  match ← Reader.peek with
  | some '"' =>
    Reader.skip
    choices.name
  | some '{' =>
    Reader.skip
    choices.member
  | some _ => .failNext .expectedValue
  | none => .failNext .endInValue

end Choices

end CycleBench.Json
