import CycleBench.Json.Number
import CycleBench.Json.StringLiteral

/-!
Values that nobody asked for. They are read over for their grammar alone, at any depth: the
brackets still open are kept in a list, innermost first.
-/

namespace CycleBench.Json.Ignored

inductive Bracket where
  | list
  | object
deriving DecidableEq

namespace Bracket

def closing : Bracket → Char
  | list => ']'
  | object => '}'

def endReason : Bracket → Reason
  | list => .endInList
  | object => .endInObject

def commaReason : Bracket → Reason
  | list => .expectedListCommaOrEnd
  | object => .expectedObjectCommaOrEnd

end Bracket

/-- Characters that begin a value other than a list or an object. -/
def isScalarStart (c : Char) : Bool :=
  c = 'n' || c = 't' || c = 'f' || c = '"' || Numeral.isStart c

/-- Takes a value that is no list and no object, its first character taken already. -/
def scalarFrom (first : Char) : Reader Unit :=
  if first = 'n' then Reader.letters ['u', 'l', 'l']
  else if first = 't' then Reader.letters ['r', 'u', 'e']
  else if first = 'f' then Reader.letters ['a', 'l', 's', 'e']
  else if first = '"' then StringLiteral.skip
  else do
    let _ ← Numeral.readFrom .invalidNumber first
    return ()

/-- Takes what stands before a value inside a bracket: a key with its colon in an object. -/
def Bracket.lead : Bracket → Reader Unit
  | list => pure ()
  | object => do
    match ← Reader.peek with
    | some '"' =>
      Reader.skip
      StringLiteral.skip
      Reader.colon
    | some _ => .failNext .keyNotString
    | none => .failNext .endInObject

/-- After a value inside the open brackets: closes those that end here and leads up to the next
value. The result is empty when no bracket is left open. -/
def closeFrom (bound : Nat) : List Bracket → (text : List Char) → text.length ≤ bound →
    Except Fault (Taken bound (List Bracket))
  | [], text, h => .ok ⟨[], text, h⟩
  | bracket :: outer, text, h =>
    match hs : skipBlanks text with
    | [] => .error (Fault.here bracket.endReason [])
    | c :: rest =>
      have fits : rest.length ≤ bound :=
        Nat.le_trans (Nat.le_of_lt (lt_of_skipBlanks_eq_cons hs)) h
      if c = bracket.closing then closeFrom bound outer rest fits
      else if c = ',' then
        match bracket.lead rest with
        | .error fault => .error fault
        | .ok taken => .ok ⟨bracket :: outer, taken.rest, Nat.le_trans taken.bounded fits⟩
      else .error (Fault.next bracket.commaReason (c :: rest))

def close (brackets : List Bracket) : Reader (List Bracket) := fun text =>
  closeFrom text.length brackets text (length_le_self text)

/-- After an opening bracket: closes it again or leads up to its first value. -/
def opened (bracket : Bracket) (outer : List Bracket) : Reader (List Bracket) := do
  match ← Reader.peek with
  | none => .failNext bracket.endReason
  | some c =>
    if c = bracket.closing then
      Reader.skip
      close outer
    else
      bracket.lead
      return bracket :: outer

/-- Takes one scalar or one opening bracket, its first character taken already, and what
follows up to the next value that is due. -/
def advance (first : Char) (outer : List Bracket) : Reader (List Bracket) :=
  if first = '[' then opened .list outer
  else if first = '{' then opened .object outer
  else do
    scalarFrom first
    close outer

/-- Takes values until no bracket is open. -/
def valuesFrom (bound : Nat) (outer : List Bracket) (text : List Char)
    (h : text.length ≤ bound) : Except Fault (Taken bound Unit) :=
  match hs : skipBlanks text with
  | [] => .error (Fault.here .endInValue [])
  | c :: rest =>
    have shorter : rest.length < text.length := lt_of_skipBlanks_eq_cons hs
    if isScalarStart c || c = '[' || c = '{' then
      match advance c outer rest with
      | .error fault => .error fault
      | .ok taken =>
        have fits : taken.rest.length ≤ bound :=
          Nat.le_trans taken.bounded (Nat.le_trans (Nat.le_of_lt shorter) h)
        if taken.value.isEmpty then .ok ⟨(), taken.rest, fits⟩
        else valuesFrom bound taken.value taken.rest fits
    else .error (Fault.next .expectedValue (c :: rest))
termination_by text.length
decreasing_by exact Nat.lt_of_le_of_lt taken.bounded shorter

/-- Takes one value of any kind. -/
def value : Reader Unit := fun text =>
  valuesFrom text.length [] text (length_le_self text)

end CycleBench.Json.Ignored
