import CycleBench.Json.Ignored
import CycleBench.Json.Scalar

/-!
Records: values with named fields, written as an object in any order or as a list in the order
of declaration. A field may be left out unless it is required, and an object may hold members
that the record does not know.
-/

namespace CycleBench.Json

/-- A field of a record: how its value is read and put in. -/
structure Field (α : Type) where
  name : String
  required : Bool
  read : Reader (α → α)

/-- A field that keeps its default when it is left out. -/
def Field.optional {α β : Type} (name : String) (reader : Reader β) (put : β → α → α) :
    Field α where
  name
  required := false
  read := do return put (← reader)

/-- A field that has to be given. -/
def Field.mandatory {α β : Type} (name : String) (reader : Reader β) (put : β → α → α) :
    Field α where
  name
  required := true
  read := do return put (← reader)

structure Record (α : Type) where
  name : String
  /-- The record with no field given yet. -/
  initial : α
  /-- The fields in the order of declaration. -/
  fields : List (Field α)

namespace Record

variable {α : Type}

def field? (record : Record α) (name : String) : Option (Field α) :=
  record.fields.find? (·.name = name)

/-- The first required field that was not given. -/
def missing? (record : Record α) (given : List String) : Option (Field α) :=
  record.fields.find? fun field => field.required && !given.contains field.name

/-- The fault of a field that is given twice, just after its second key: a closing brace that
follows still counts as read. -/
def duplicateFault (name : String) (text : List Char) : Fault :=
  match skipBlanks text with
  | '}' :: rest => Fault.here (.duplicateField name) rest
  | rest => Fault.here (.duplicateField name) rest

/-- Takes one member from behind the opening quote of its key; the result is the record with
that member, and the names given so far. -/
def member (record : Record α) (given : List String) (value : α) :
    Reader (List String × α) := do
  let key ← StringLiteral.decode
  match record.field? key with
  | none =>
    Reader.colon
    Ignored.value
    return (given, value)
  | some field =>
    if given.contains key then fun text => .error (duplicateFault key text)
    else
      Reader.colon
      let put ← field.read
      return (key :: given, put value)

/-- Takes members from behind the opening quote of a key, up to the closing brace. -/
def membersFrom (record : Record α) (bound : Nat) (given : List String) (value : α)
    (text : List Char) (h : text.length ≤ bound) : Except Fault (Taken bound α) :=
  match record.member given value text with
  | .error fault => .error fault
  | .ok taken =>
    match hs : skipBlanks taken.rest with
    | [] => .error (Fault.here .endInObject [])
    | c :: rest =>
      have shorter : rest.length < text.length :=
        Nat.lt_of_lt_of_le (lt_of_skipBlanks_eq_cons hs) taken.bounded
      if c = '}' then
        match record.missing? taken.value.1 with
        | some field => .error (Fault.here (.missingField field.name) rest)
        | none => .ok ⟨taken.value.2, rest, Nat.le_trans (Nat.le_of_lt shorter) h⟩
      else if c = ',' then
        match hk : skipBlanks rest with
        | [] => .error (Fault.here .endInValue [])
        | d :: key =>
          have less : key.length < text.length :=
            Nat.lt_trans (lt_of_skipBlanks_eq_cons hk) shorter
          if d = '"' then
            record.membersFrom bound taken.value.1 taken.value.2 key
              (Nat.le_trans (Nat.le_of_lt less) h)
          else if d = '}' then .error (Fault.next .trailingComma (d :: key))
          else .error (Fault.next .keyNotString (d :: key))
      else .error (Fault.next .expectedObjectCommaOrEnd (c :: rest))
termination_by text.length
decreasing_by exact less

/-- Takes the object form from behind its opening brace. -/
def object (record : Record α) : Reader α := do
  match ← Reader.peek with
  | none => .failNext .endInObject
  | some c =>
    if c = '}' then
      Reader.skip
      match record.missing? [] with
      | some field => .failHere (.missingField field.name)
      | none => return record.initial
    else if c = '"' then
      Reader.skip
      fun text => record.membersFrom text.length [] record.initial text (length_le_self text)
    else .failNext .keyNotString

/-- After the last field of the list form: the closing bracket. -/
def listEnd : Reader Unit := do
  match ← Reader.peek with
  | some ']' => Reader.skip
  | some ',' =>
    Reader.skip
    match ← Reader.peek with
    | some ']' => .failNext .trailingComma
    | _ => .failNext .trailingCharacters
  | some _ => .failNext .trailingCharacters
  | none => .failNext .endInList

/-- Takes the separator before an element of a list: none before the first, a comma before
another. The result says whether the list ended instead; its bracket is taken then. -/
def separator (first : Bool) : Reader Bool := do
  match ← Reader.peek with
  | none => .failNext .endInList
  | some ']' =>
    Reader.skip
    return true
  | some ',' =>
    if first then return false
    Reader.skip
    match ← Reader.peek with
    | none => .failNext .endInValue
    | some ']' => .failNext .trailingComma
    | some _ => return false
  | some _ => if first then return false else .failNext .expectedListCommaOrEnd

/-- Takes the fields of the list form, `count` of which are read already. -/
def elements (record : Record α) (count : Nat) (value : α) : List (Field α) → Reader α
  | [] => do
    listEnd
    return value
  | field :: fields => do
    if ← separator (count = 0) then
      if (field :: fields).any (·.required) then
        .failHere (.invalidLength count record.name record.fields.length)
      else return value
    else
      let put ← field.read
      record.elements (count + 1) (put value) fields

def reader (record : Record α) : Reader α :=
  typed ("struct " ++ record.name) (fun c => c = '{' || c = '[') fun first =>
    if first = '{' then record.object
    else record.elements 0 record.initial record.fields

end Record

end CycleBench.Json
