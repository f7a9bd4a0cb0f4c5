import CycleBench.Json.Fault

/-!
Readers: functions that take a value off the front of a text or say what is wrong there. What
a reader leaves is never longer than what it was given, so loops over readers end.
-/

namespace CycleBench.Json

/-- A value and the unread text, which has at most `bound` characters. -/
structure Taken (bound : Nat) (α : Type) where
  value : α
  rest : List Char
  bounded : rest.length ≤ bound

/-- The same result under a larger bound. -/
@[inline]
def Taken.weaken {m n : Nat} {α : Type} (taken : Taken m α) (h : m ≤ n) : Taken n α :=
  ⟨taken.value, taken.rest, Nat.le_trans taken.bounded h⟩

theorem length_le_self (text : List Char) : text.length ≤ text.length :=
  Nat.le_refl _

theorem length_le_cons (c : Char) (rest : List Char) : rest.length ≤ (c :: rest).length :=
  Nat.le_succ _

def Reader (α : Type) : Type :=
  (text : List Char) → Except Fault (Taken text.length α)

namespace Reader

@[inline]
def pure {α : Type} (value : α) : Reader α :=
  fun text => .ok ⟨value, text, length_le_self text⟩

@[inline]
def bind {α β : Type} (reader : Reader α) (next : α → Reader β) : Reader β :=
  fun text =>
    match reader text with
    | .error fault => .error fault
    | .ok first =>
      match next first.value first.rest with
      | .error fault => .error fault
      | .ok second => .ok (second.weaken first.bounded)

instance : Monad Reader where
  pure := Reader.pure
  bind := Reader.bind

/-- Fails before the next character. -/
def failHere {α : Type} (reason : Reason) : Reader α :=
  fun text => .error (Fault.here reason text)

/-- Fails at the next byte. -/
def failNext {α : Type} (reason : Reason) : Reader α :=
  fun text => .error (Fault.next reason text)

end Reader

def isBlank (c : Char) : Bool :=
  c = ' ' || c = '\n' || c = '\t' || c = '\r'

def skipBlanks (text : List Char) : List Char :=
  text.dropWhile isBlank

theorem length_skipBlanks_le (text : List Char) : (skipBlanks text).length ≤ text.length :=
  (List.dropWhile_suffix isBlank).length_le

theorem lt_of_skipBlanks_eq_cons {text rest : List Char} {c : Char}
    (h : skipBlanks text = c :: rest) : rest.length < text.length := by
  have hle := length_skipBlanks_le text
  rw [h] at hle
  exact hle

namespace Reader

/-- What is next after blanks, or the end. -/
def peek : Reader (Option Char) :=
  fun text => .ok ⟨(skipBlanks text).head?, skipBlanks text, length_skipBlanks_le text⟩

/-- Takes one character, whatever it is. -/
def skip : Reader Unit :=
  fun text => .ok ⟨(), text.tail, by simp⟩

/-- Takes the rest of a literal word; a wrong byte counts as read. -/
def letters : List Char → Reader Unit
  | [] => pure ()
  | c :: word => fun text =>
    match text with
    | [] => .error (Fault.here .endInValue [])
    | d :: rest =>
      if c = d then
        match letters word rest with
        | .error fault => .error fault
        | .ok taken => .ok (taken.weaken (length_le_cons d rest))
      else .error (Fault.next .expectedIdent (d :: rest))

/-- The colon between a key and its value. -/
def colon : Reader Unit := do
  match ← peek with
  | some ':' => skip
  | some _ => failNext .expectedColon
  | none => failNext .endInObject

end Reader

end CycleBench.Json
