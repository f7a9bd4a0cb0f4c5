import CycleBench.Json.Number
import CycleBench.Json.StringLiteral

/-!
Typed values without parts: bounded integers, booleans, strings and the strings that may be
missing. A value of another type is read just far enough to be named.
-/

namespace CycleBench.Json

/-- The fault of a value that is not of the expected type. A scalar is read before it is named,
and a mistake in it comes first; a list or an object is named by its bracket. -/
def wrongType (expected : String) (text : List Char) : Fault :=
  let after {α : Type} {bound : Nat} (found : α → Found) :
      Except Fault (Taken bound α) → Fault
    | .error fault => fault
    | .ok taken => Fault.here (.invalidType (found taken.value) expected) taken.rest
  match text with
  | [] => Fault.here .endInValue []
  | c :: rest =>
    if c = 'n' then after (fun _ => .null) (Reader.letters ['u', 'l', 'l'] rest)
    else if c = 't' then after (fun _ => .boolean true) (Reader.letters ['r', 'u', 'e'] rest)
    else if c = 'f' then
      after (fun _ => .boolean false) (Reader.letters ['a', 'l', 's', 'e'] rest)
    else if c = '"' then after .string (StringLiteral.decode rest)
    else if Numeral.isStart c then after Number.found (Number.readFrom c rest)
    else if c = '[' then Fault.here (.invalidType .sequence expected) text
    else if c = '{' then Fault.here (.invalidType .map expected) text
    else Fault.next .expectedValue text

/-- A value of a type named `expected`: when its first character is one that such a value can
begin with, `reader` takes the rest. -/
def typed {α : Type} (expected : String) (isStart : Char → Bool) (reader : Char → Reader α) :
    Reader α := fun text =>
  match hs : skipBlanks text with
  | [] => .error (Fault.here .endInValue [])
  | c :: rest =>
    if isStart c then
      match reader c rest with
      | .error fault => .error fault
      | .ok taken => .ok (taken.weaken (Nat.le_of_lt (lt_of_skipBlanks_eq_cons hs)))
    else .error (wrongType expected (c :: rest))

/-- The integer that a number is, if it lies in a range. -/
def Number.inRange (expected : String) (low high : Int) : Number → Except Reason Int
  | natural n =>
    if (n : Int) ≤ high then .ok n else .error (.invalidValue n expected)
  | negative n =>
    if low ≤ -(n : Int) then .ok (-n) else .error (.invalidValue (-n) expected)
  | number => .error (.invalidType number.found expected)

/-- An integer in a range. -/
def integer (expected : String) (low high : Int) : Reader Int :=
  typed expected Numeral.isStart fun first => do
    match (← Number.readFrom first).inRange expected low high with
    | .ok n => return n
    | .error reason => .failHere reason

/-- A natural number below `2 ^ 64`. -/
def natural64 : Reader Nat := do
  return (← integer "u64" 0 (naturalLimit - 1)).toNat

/-- An integer from -128 to 127. -/
def signedByte : Reader Int8 := do
  return Int8.ofInt (← integer "i8" (-128) 127)

def boolean : Reader Bool :=
  typed "a boolean" (fun c => c = 't' || c = 'f') fun first => do
    if first = 't' then
      Reader.letters ['r', 'u', 'e']
      return true
    else
      Reader.letters ['a', 'l', 's', 'e']
      return false

def string : Reader String :=
  typed "a string" (· = '"') fun _ => StringLiteral.decode

/-- The value `null`. -/
def null : Reader Unit :=
  typed "unit" (· = 'n') fun _ => Reader.letters ['u', 'l', 'l']

/-- `null`, or a value of another type. -/
def optional {α : Type} (reader : Reader α) : Reader (Option α) := do
  match ← Reader.peek with
  | some 'n' =>
    null
    return none
  | _ => return some (← reader)

end CycleBench.Json
