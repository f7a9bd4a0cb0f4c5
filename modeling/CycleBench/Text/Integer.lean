/-!
Integers in plain text: decimal digits behind an optional sign, and nothing else.
-/

namespace CycleBench.Text

/-- The number that a nonempty run of decimal digits spells. -/
def digits? (text : List Char) : Option Nat :=
  if text.isEmpty || !text.all Char.isDigit then none
  else some (text.foldl (fun n d => 10 * n + (d.toNat - '0'.toNat)) 0)

/-- A natural number; a plus sign may stand before it. -/
def natural? (text : String) : Option Nat :=
  match text.toList with
  | '+' :: rest => digits? rest
  | chars => digits? chars

/-- An integer; a plus or a minus sign may stand before it. -/
def integer? (text : String) : Option Int :=
  match text.toList with
  | '-' :: rest => (digits? rest).map fun n => -(n : Int)
  | _ => (natural? text).map fun n => (n : Int)

/-- A natural number below `2 ^ 64`. -/
def natural64? (text : String) : Option Nat :=
  (natural? text).filter (· < Nat.pow 2 64)

/-- An integer from -128 to 127. -/
def signedByte? (text : String) : Option Int8 :=
  ((integer? text).filter fun n => -128 ≤ n && n ≤ 127).map Int8.ofInt

/-! ## Reading what is printed -/

theorem digits?_toDigits (n : Nat) : digits? (Nat.toDigits 10 n) = some n := by
  have hdigits : (Nat.toDigits 10 n).all Char.isDigit = true :=
    List.all_eq_true.mpr fun _ => Nat.isDigit_of_mem_toDigits (by decide) (by decide)
  have hvalue : (Nat.toDigits 10 n).foldl (fun n d => 10 * n + (d.toNat - '0'.toNat)) 0 = n :=
    Nat.ofDigitChars_ten_toDigits
  rw [digits?, hvalue, hdigits]
  simp [Nat.toDigits_ne_nil]

/-- A printed number starts with a digit. -/
theorem head?_toList_toString (n : Nat) {c : Char} (h : c.isDigit = false) :
    (toString n).toList.head? ≠ some c := by
  rw [Nat.toString_eq_repr, Nat.toList_repr]
  intro hhead
  rw [Nat.isDigit_of_mem_toDigits (by decide) (by decide) (List.mem_of_head? hhead)] at h
  cases h

theorem natural?_toString (n : Nat) : natural? (toString n) = some n := by
  unfold natural?
  split
  · next rest htext =>
    have hsign := head?_toList_toString n (by decide : '+'.isDigit = false)
    rw [htext] at hsign
    exact absurd rfl hsign
  · rw [Nat.toString_eq_repr, Nat.toList_repr, digits?_toDigits]

theorem integer?_toString (i : Int) : integer? (toString i) = some i := by
  cases i with
  | ofNat n =>
    change integer? (toString n) = some (n : Int)
    unfold integer?
    split
    · next rest htext =>
      have hsign := head?_toList_toString n (by decide : '-'.isDigit = false)
      rw [htext] at hsign
      exact absurd rfl hsign
    · rw [natural?_toString]
      rfl
  | negSucc n =>
    change integer? ("-" ++ Nat.repr (n + 1)) = some (Int.negSucc n)
    have htext : ("-" ++ Nat.repr (n + 1)).toList = '-' :: Nat.toDigits 10 (n + 1) := by
      rw [String.toList_append, Nat.toList_repr]
      rfl
    simp only [integer?, htext, digits?_toDigits]
    rfl

theorem natural64?_toString {n : Nat} (h : n < Nat.pow 2 64) :
    natural64? (toString n) = some n := by
  rw [natural64?, natural?_toString, Option.filter_some, if_pos (decide_eq_true h)]

theorem signedByte?_toString (n : Int8) : signedByte? (toString n.toInt) = some n := by
  have hlow := n.le_toInt
  have hhigh := n.toInt_lt
  have hrange : (decide (-128 ≤ n.toInt) && decide (n.toInt ≤ 127)) = true := by
    simp only [Bool.and_eq_true, decide_eq_true_eq]
    omega
  rw [signedByte?, integer?_toString, Option.filter_some, if_pos hrange, Option.map_some,
    Int8.ofInt_toInt]

end CycleBench.Text
