import CycleBench.Json.Record

/-!
Sequences of values of one type, and whole documents: one value between blanks.
-/

namespace CycleBench.Json

variable {α : Type}

/-- Takes elements behind others, up to the closing bracket. -/
def elementsFrom (item : Reader α) (bound : Nat) (done : Array α) (text : List Char)
    (h : text.length ≤ bound) : Except Fault (Taken bound (Array α)) :=
  match hs : skipBlanks text with
  | [] => .error (Fault.here .endInList [])
  | c :: rest =>
    have shorter : rest.length < text.length := lt_of_skipBlanks_eq_cons hs
    if c = ']' then .ok ⟨done, rest, Nat.le_trans (Nat.le_of_lt shorter) h⟩
    else if c = ',' then
      match skipBlanks rest with
      | [] => .error (Fault.here .endInValue [])
      | d :: later =>
        if d = ']' then .error (Fault.next .trailingComma (d :: later))
        else
          match item rest with
          | .error fault => .error fault
          | .ok taken =>
            elementsFrom item bound (done.push taken.value) taken.rest
              (Nat.le_trans taken.bounded (Nat.le_trans (Nat.le_of_lt shorter) h))
    else .error (Fault.next .expectedListCommaOrEnd (c :: rest))
termination_by text.length
decreasing_by exact Nat.lt_of_le_of_lt taken.bounded shorter

/-- A list of values, in their order. -/
def sequence (item : Reader α) : Reader (Array α) :=
  typed "a sequence" (· = '[') fun _ => do
    match ← Reader.peek with
    | none => .failNext .endInList
    | some ']' =>
      Reader.skip
      return #[]
    | some _ =>
      let first ← item
      fun text => elementsFrom item text.length #[first] text (length_le_self text)

/-- The value of a text that holds one value and nothing else but blanks. -/
def parse (reader : Reader α) (text : String) : Except Error α :=
  let chars := text.toList
  match reader chars with
  | .error fault => .error (Error.ofFault chars fault)
  | .ok taken =>
    match skipBlanks taken.rest with
    | [] => .ok taken.value
    | rest => .error (Error.ofFault chars (Fault.next .trailingCharacters rest))

end CycleBench.Json
