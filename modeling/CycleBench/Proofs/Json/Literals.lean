import CycleBench.Proofs.Json.Scalars
import Mathlib.Data.Rat.Cast.Order

/-!
Literals of numbers, and the numbers they stand for. A literal of any length stands for a rational
number (`Numeral.value`). In a document it is an integer exactly if it is plain, that is, without
fraction and exponent and not minus zero, and then the integer is the number it stands for
(`SpellsNumeral.isInteger_iff`).
-/

namespace CycleBench.Json

/-- The number that a numeral stands for. -/
def Numeral.value (numeral : Numeral) : ℚ :=
  let fraction := numeral.fraction.getD []
  let exponent : Int := match numeral.exponent with
    | none => 0
    | some (down, digits) => (if down then -1 else 1) * Nat.ofDigitChars 10 digits 0
  (if numeral.negative then -1 else 1) * Nat.ofDigitChars 10 (numeral.whole ++ fraction) 0 *
    10 ^ (exponent - fraction.length)

/-- No fraction and no exponent, and not minus zero. -/
def IsPlain (literal : List Char) : Prop :=
  '.' ∉ literal ∧ 'e' ∉ literal ∧ 'E' ∉ literal ∧ literal ≠ ['-', '0']

variable {literal digits : List Char} {numeral : Numeral}

theorem IsWhole.isDigits (h : IsWhole digits) : IsDigits digits := by
  obtain rfl | ⟨h, -⟩ := h
  · exact ⟨List.cons_ne_nil _ _, by simp⟩
  · exact h

theorem IsWhole.ofDigitChars_eq_zero_iff (h : IsWhole digits) :
    Nat.ofDigitChars 10 digits 0 = 0 ↔ digits = ['0'] := by
  refine ⟨fun hzero => ?_, fun hdigits => hdigits ▸ rfl⟩
  obtain rfl | ⟨⟨hne, hdigits⟩, hhead⟩ := h
  · rfl
  · -- the first digit is not zero, and counts most
    obtain ⟨d, later, rfl⟩ := List.exists_cons_of_ne_nil hne
    have hd : d.toNat - '0'.toNat = 0 := by
      rw [Nat.ofDigitChars_cons, Nat.ofDigitChars_eq_ofDigitChars_zero, Nat.mul_zero, Nat.zero_add,
        Nat.add_eq_zero_iff, Nat.mul_eq_zero] at hzero
      exact hzero.1.resolve_left (Nat.ne_of_gt (Nat.pow_pos (by decide)))
    have hle := (Char.isDigit_iff_toNat.mp (hdigits d (.head _))).1
    obtain rfl : d = '0' := Char.toNat_inj.mp (Nat.le_antisymm (Nat.sub_eq_zero_iff_le.mp hd) hle)
    exact absurd rfl hhead

/-- A mark that is neither a digit nor a sign is nowhere in an integer. -/
theorem notMem_sign_append_whole {sign whole : List Char} {negative : Bool} {c : Char}
    (hsign : (sign, negative) ∈ [([], false), (['-'], true)]) (hwhole : IsWhole whole)
    (hdigit : c.isDigit = false) (hminus : c ≠ '-') : c ∉ sign ++ whole := by
  have hnot : c ∉ whole := fun hmem => by
    rw [hwhole.isDigits.2 c hmem] at hdigit
    cases hdigit
  simp only [List.mem_cons, Prod.mk.injEq, List.not_mem_nil, or_false] at hsign
  rcases hsign with ⟨rfl, rfl⟩ | ⟨rfl, rfl⟩ <;> simp [hnot, hminus]

theorem SpellsNumeral.isPlain_iff (h : SpellsNumeral literal numeral) :
    IsPlain literal ↔ numeral.fraction = none ∧ numeral.exponent = none ∧
      (numeral.negative = true → Nat.ofDigitChars 10 numeral.whole 0 ≠ 0) := by
  obtain ⟨hsign, hwhole, hfraction, hexponent⟩ := h
  cases hfraction with
  | some hdigits => simp [IsPlain]
  | none =>
    cases hexponent with
    | some hmark hdown hdigits =>
      rcases hmark with rfl | rfl <;> simp [IsPlain]
    | none =>
      have hmark {c : Char} := notMem_sign_append_whole (c := c) hsign hwhole
      simp only [IsPlain, List.append_nil, hmark (by decide : '.'.isDigit = false) (by decide),
        hmark (by decide : 'e'.isDigit = false) (by decide),
        hmark (by decide : 'E'.isDigit = false) (by decide), not_false_eq_true, true_and, ne_eq,
        hwhole.ofDigitChars_eq_zero_iff]
      simp only [List.mem_cons, Prod.mk.injEq, List.not_mem_nil, or_false] at hsign
      rcases hsign with ⟨rfl, rfl⟩ | ⟨rfl, rfl⟩
      · obtain ⟨d, later, rfl, hd⟩ := hwhole.eq_cons
        have hne : d ≠ '-' := by
          rintro rfl
          cases hd
        simp [hne]
      · simp

theorem Numeral.value_of_plain (hfraction : numeral.fraction = none)
    (hexponent : numeral.exponent = none) :
    numeral.value = (if numeral.negative then -1 else 1) * Nat.ofDigitChars 10 numeral.whole 0 := by
  simp [value, hfraction, hexponent]

theorem SpellsNumeral.exists_eq_value (h : SpellsNumeral literal numeral)
    (hplain : IsPlain literal) : ∃ i : Int, i = numeral.value := by
  obtain ⟨hfraction, hexponent, -⟩ := h.isPlain_iff.mp hplain
  refine ⟨(if numeral.negative then -1 else 1) * Nat.ofDigitChars 10 numeral.whole 0, ?_⟩
  rw [Numeral.value_of_plain hfraction hexponent]
  push_cast
  rfl

/-- The literals that are integers, each being the number it stands for. -/
theorem SpellsNumeral.isInteger_iff (h : SpellsNumeral literal numeral) {i : Int} :
    IsInteger (.number numeral) i ↔ IsPlain literal ∧ i = numeral.value := by
  rw [h.isPlain_iff]
  constructor
  · rintro ⟨negative, digits, hnumber, hzero, rfl⟩
    cases hnumber
    refine ⟨⟨rfl, rfl, by exact_mod_cast hzero⟩, ?_⟩
    rw [Numeral.value_of_plain rfl rfl]
    cases negative <;> simp
  · rintro ⟨⟨hfraction, hexponent, hzero⟩, hi⟩
    rw [Numeral.value_of_plain hfraction hexponent] at hi
    obtain ⟨negative, whole, fraction, exponent⟩ := numeral
    obtain rfl := hfraction
    obtain rfl := hexponent
    refine ⟨negative, whole, rfl, by exact_mod_cast hzero, ?_⟩
    cases negative
    · exact_mod_cast hi.trans (one_mul _)
    · exact_mod_cast hi.trans (neg_one_mul _)

end CycleBench.Json
