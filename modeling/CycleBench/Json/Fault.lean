import CycleBench.Text.Quoted

/-!
What can be wrong with a JSON text, and where. A reader notes how many bytes it had left; the
line and the column are counted from the whole text at the end.
-/

namespace CycleBench.Json

/-- The value found where another type was expected. -/
inductive Found where
  | null
  | boolean (value : Bool)
  | integer (value : Int)
  /-- A number that is no integer, by its text. -/
  | floating (text : String)
  | string (text : String)
  | sequence
  | map
deriving DecidableEq

def Found.text : Found → String
  | null => "null"
  | boolean value => if value then "boolean `true`" else "boolean `false`"
  | integer value => "integer `" ++ toString value ++ "`"
  | floating text => "floating point `" ++ text ++ "`"
  | string text => "string " ++ Text.quoted text
  | sequence => "sequence"
  | map => "map"

inductive Reason where
  | endInValue
  | endInList
  | endInObject
  | endInString
  | expectedColon
  | expectedListCommaOrEnd
  | expectedObjectCommaOrEnd
  | expectedIdent
  | expectedValue
  | invalidEscape
  | invalidNumber
  | numberOutOfRange
  | loneSurrogate
  | unpairedSurrogate
  | controlCharacter
  | keyNotString
  | trailingComma
  | trailingCharacters
  | invalidType (found : Found) (expected : String)
  | invalidValue (value : Int) (expected : String)
  | invalidLength (length : Nat) (record : String) (fields : Nat)
  | unknownVariant (name : String) (known : List String)
  | missingField (name : String)
  | duplicateField (name : String)
deriving DecidableEq

def Reason.text : Reason → String
  | endInValue => "EOF while parsing a value"
  | endInList => "EOF while parsing a list"
  | endInObject => "EOF while parsing an object"
  | endInString => "EOF while parsing a string"
  | expectedColon => "expected `:`"
  | expectedListCommaOrEnd => "expected `,` or `]`"
  | expectedObjectCommaOrEnd => "expected `,` or `\x7d`"
  | expectedIdent => "expected ident"
  | expectedValue => "expected value"
  | invalidEscape => "invalid escape"
  | invalidNumber => "invalid number"
  | numberOutOfRange => "number out of range"
  | loneSurrogate => "lone leading surrogate in hex escape"
  | unpairedSurrogate => "unexpected end of hex escape"
  | controlCharacter => "control character (\\u0000-\\u001F) found while parsing a string"
  | keyNotString => "key must be a string"
  | trailingComma => "trailing comma"
  | trailingCharacters => "trailing characters"
  | invalidType found expected => "invalid type: " ++ found.text ++ ", expected " ++ expected
  | invalidValue value expected =>
    "invalid value: " ++ (Found.integer value).text ++ ", expected " ++ expected
  | invalidLength length record fields =>
    "invalid length " ++ toString length ++ ", expected struct " ++ record ++ " with " ++
      toString fields ++ " elements"
  | unknownVariant name known =>
    "unknown variant `" ++ name ++ "`, expected one of " ++
      ", ".intercalate (known.map fun k => "`" ++ k ++ "`")
  | missingField name => "missing field `" ++ name ++ "`"
  | duplicateField name => "duplicate field `" ++ name ++ "`"

/-- A place in a text: the line counts from one, the column from zero. -/
structure Position where
  line : Nat
  column : Nat
deriving DecidableEq

/-- The place after the given number of bytes. -/
def Position.after (bytes : Nat) (text : List Char) : Position :=
  go bytes text ⟨1, 0⟩
where
  go : Nat → List Char → Position → Position
    | _, [], position => position
    | bytes, c :: rest, position =>
      if bytes = 0 then position
      else if c = '\n' then go (bytes - 1) rest ⟨position.line + 1, 0⟩
      else go (bytes - c.utf8Size) rest
        ⟨position.line, position.column + min bytes c.utf8Size⟩

/-- A reason, and the number of bytes not yet read when it arose. -/
structure Fault where
  reason : Reason
  unread : Nat
deriving DecidableEq

def byteCount (text : List Char) : Nat :=
  text.foldl (fun total c => total + c.utf8Size) 0

/-- A fault noticed before the next character. -/
def Fault.here (reason : Reason) (rest : List Char) : Fault :=
  ⟨reason, byteCount rest⟩

/-- A fault of the next byte, which counts as read if there is one. -/
def Fault.next (reason : Reason) (rest : List Char) : Fault :=
  ⟨reason, byteCount rest - 1⟩

structure Error where
  reason : Reason
  position : Position
deriving DecidableEq

namespace Error

def ofFault (text : List Char) (fault : Fault) : Error :=
  ⟨fault.reason, Position.after (byteCount text - fault.unread) text⟩

def message (error : Error) : String :=
  error.reason.text ++ " at line " ++ toString error.position.line ++ " column " ++
    toString error.position.column

end Error

end CycleBench.Json
