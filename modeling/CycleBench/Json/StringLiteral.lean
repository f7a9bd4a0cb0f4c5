import CycleBench.Json.Reader

/-!
String literals, read from behind the opening quote. A literal that is wanted is decoded, and
its surrogate escapes must come in pairs; one that is not is skipped, and any four hexadecimal
digits will do.
-/

namespace CycleBench.Json.StringLiteral

def hexValue? (c : Char) : Option Nat :=
  if '0' ≤ c ∧ c ≤ '9' then some (c.toNat - '0'.toNat)
  else if 'a' ≤ c ∧ c ≤ 'f' then some (c.toNat - 'a'.toNat + 10)
  else if 'A' ≤ c ∧ c ≤ 'F' then some (c.toNat - 'A'.toNat + 10)
  else none

/-- The code unit that four hexadecimal digits spell. -/
def unitValue? (a b c d : Char) : Option Nat := do
  return ((← hexValue? a) * 16 + (← hexValue? b)) * 256 + (← hexValue? c) * 16 + (← hexValue? d)

/-- The fault of a text that does not begin with four hexadecimal digits: four bytes count as
read, or all that are left when there are fewer. -/
def unitFault (text : List Char) : Fault :=
  if byteCount text < 4 then ⟨.endInString, 0⟩ else ⟨.invalidEscape, byteCount text - 4⟩

/-- Takes the four digits of a `\u` escape. -/
def codeUnit : Reader Nat := fun text =>
  match text with
  | a :: b :: c :: d :: rest =>
    match unitValue? a b c d with
    | some unit => .ok ⟨unit, rest, by simp; omega⟩
    | none => .error (unitFault text)
  | _ => .error (unitFault text)

def isHighSurrogate (unit : Nat) : Bool :=
  0xd800 ≤ unit && unit < 0xdc00

def isLowSurrogate (unit : Nat) : Bool :=
  0xdc00 ≤ unit && unit < 0xe000

/-- The character of a surrogate pair. -/
def pairValue (high low : Nat) : Char :=
  Char.ofNat (0x10000 + (high - 0xd800) * 0x400 + (low - 0xdc00))

/-- Takes the character that has to come next inside a surrogate pair. -/
def expect (c : Char) : Reader Unit := fun text =>
  match text with
  | [] => .error (Fault.here .endInString [])
  | d :: rest =>
    if d = c then .ok ⟨(), rest, length_le_cons d rest⟩
    else .error (Fault.next .unpairedSurrogate text)

/-- Takes the character of a `\u` escape from behind the `u`. -/
def unicodeEscape : Reader Char := do
  let unit ← codeUnit
  if isLowSurrogate unit then .failHere .loneSurrogate
  else if isHighSurrogate unit then
    expect '\\'
    expect 'u'
    let low ← codeUnit
    if isLowSurrogate low then return pairValue unit low
    else .failHere .loneSurrogate
  else return Char.ofNat unit

/-- The characters that stand for themselves or for a control character behind a backslash. -/
def shortEscape? : Char → Option Char
  | '"' => some '"'
  | '\\' => some '\\'
  | '/' => some '/'
  | 'b' => some '\x08'
  | 'f' => some '\x0c'
  | 'n' => some '\n'
  | 'r' => some '\r'
  | 't' => some '\t'
  | _ => none

/-- Takes an escape from behind the backslash; `unicode` takes what follows a `u`. -/
def escape {α : Type} (short : Char → α) (unicode : Reader α) : Reader α := fun text =>
  match text with
  | [] => .error (Fault.here .endInString [])
  | c :: rest =>
    if c = 'u' then
      match unicode rest with
      | .error fault => .error fault
      | .ok taken => .ok (taken.weaken (length_le_cons c rest))
    else
      match shortEscape? c with
      | some d => .ok ⟨short d, rest, length_le_cons c rest⟩
      | none => .error (Fault.next .invalidEscape text)

/-- Characters that a literal may not hold as they are. -/
def isForbidden (c : Char) : Bool :=
  c.toNat < 0x20

/-- Decodes up to the closing quote, onto what has been decoded already. -/
def decodeFrom (bound : Nat) (done : String) (text : List Char) (h : text.length ≤ bound) :
    Except Fault (Taken bound String) :=
  match text with
  | [] => .error (Fault.here .endInString [])
  | c :: rest =>
    if c = '"' then .ok ⟨done, rest, Nat.le_of_succ_le h⟩
    else if c = '\\' then
      match escape id unicodeEscape rest with
      | .error fault => .error fault
      | .ok taken =>
        decodeFrom bound (done.push taken.value) taken.rest
          (Nat.le_trans taken.bounded (Nat.le_of_succ_le h))
    else if isForbidden c then .error (Fault.next .controlCharacter (c :: rest))
    else decodeFrom bound (done.push c) rest (Nat.le_of_succ_le h)
termination_by text.length
decreasing_by
  · exact Nat.lt_succ_of_le taken.bounded
  · exact Nat.lt_succ_self _

/-- The string that a literal spells. -/
def decode : Reader String := fun text =>
  decodeFrom text.length "" text (length_le_self text)

/-- Skips up to the closing quote. -/
def skipFrom (bound : Nat) (text : List Char) (h : text.length ≤ bound) :
    Except Fault (Taken bound Unit) :=
  match text with
  | [] => .error (Fault.here .endInString [])
  | c :: rest =>
    if c = '"' then .ok ⟨(), rest, Nat.le_of_succ_le h⟩
    else if c = '\\' then
      match escape (fun _ => ()) (do let _ ← codeUnit; return ()) rest with
      | .error fault => .error fault
      | .ok taken =>
        skipFrom bound taken.rest (Nat.le_trans taken.bounded (Nat.le_of_succ_le h))
    else if isForbidden c then .error (Fault.here .controlCharacter (c :: rest))
    else skipFrom bound rest (Nat.le_of_succ_le h)
termination_by text.length
decreasing_by
  · exact Nat.lt_succ_of_le taken.bounded
  · exact Nat.lt_succ_self _

def skip : Reader Unit := fun text =>
  skipFrom text.length text (length_le_self text)

end CycleBench.Json.StringLiteral
