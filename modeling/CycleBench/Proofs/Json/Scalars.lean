import CycleBench.Json.Choice
import CycleBench.Proofs.Json.Numbers
import CycleBench.Proofs.Json.Strings

/-!
What the readers of scalars denote: integers in a range, booleans, strings and named choices.
-/

namespace CycleBench.Json

variable {text rest : List Char}

theorem takes_integer {expected : String} {low high : Int} (hlow : -2 ^ 63 ≤ low)
    (hzero : low ≤ 0 ∧ 0 ≤ high) (hhigh : high < 2 ^ 64) {first : Char} {i : Int} :
    (do
      match (← Number.readFrom first).inRange expected low high with
      | .ok n => return n
      | .error reason => .failHere reason : Reader Int).Takes text i rest ↔
    ∃ numeral, (Numeral.readFrom .endInValue first).Takes text numeral rest ∧
      IsInteger (.number numeral) i ∧ low ≤ i ∧ i ≤ high := by
  rw [Reader.takes_bind]
  simp only [Number.takes_readFrom]
  constructor
  · rintro ⟨number, _, ⟨numeral, hnumeral, hnumber⟩, h⟩
    split at h
    · next hi =>
      obtain ⟨rfl, rfl⟩ := Reader.takes_pure.mp h
      exact ⟨numeral, hnumeral,
        (Number.inRange_ofNumeral_iff hlow hzero hhigh).mp ⟨number, hnumber, hi⟩⟩
    · cases h
  · rintro ⟨numeral, hnumeral, hi⟩
    obtain ⟨number, hnumber, hi : number.inRange expected low high = .ok i⟩ :=
      (Number.inRange_ofNumeral_iff hlow hzero hhigh).mpr hi
    exact ⟨number, rest, ⟨numeral, hnumeral, hnumber⟩, by simp [hi]⟩

theorem denotes_integer (expected : String) {low high : Int} (hlow : -2 ^ 63 ≤ low)
    (hzero : low ≤ 0 ∧ 0 ≤ high) (hhigh : high < 2 ^ 64) :
    (integer expected low high).Denotes fun x i => IsInteger x i ∧ low ≤ i ∧ i ≤ high := by
  refine denotes_typed (fun {first behind i rest} hfirst h => ?_)
    fun {text x i rest} hx hi hends => ?_
  · obtain ⟨numeral, hnumeral, hi⟩ := (takes_integer hlow hzero hhigh).mp h
    obtain ⟨spelling, hspelling, hnumeral⟩ := Numeral.sound_readFrom hfirst hnumeral
    exact ⟨.number numeral, hspelling ▸ .number hnumeral rest, hi⟩
  · obtain ⟨⟨negative, digits, rfl, hi⟩, hrange⟩ := hi
    cases hx with
    | number h =>
      obtain ⟨first, behind, rfl, hfirst⟩ := h.eq_cons
      have hnumeral := Numeral.complete_readFrom .endInValue h (Numeral.stops_of_ends hends) rfl
      exact ⟨first, behind ++ rest, rfl, hfirst, (takes_integer hlow hzero hhigh).mpr
        ⟨_, hnumeral, ⟨_, _, rfl, hi⟩, hrange⟩⟩

theorem denotes_natural64 : natural64.Denotes IsNatural64 := by
  have hinteger : (integer "u64" 0 (naturalLimit - 1)).Denotes fun x i =>
      IsInteger x i ∧ 0 ≤ i ∧ i ≤ naturalLimit - 1 :=
    denotes_integer "u64" (by decide) (by decide) (by decide)
  refine (hinteger.map Int.toNat).congr fun x n => ?_
  have hlimit : naturalLimit = 2 ^ 64 := rfl
  constructor
  · rintro ⟨i, ⟨hi, hlow, hhigh⟩, rfl⟩
    exact ⟨by rwa [Int.toNat_of_nonneg hlow], by omega⟩
  · rintro ⟨hn, hlt⟩
    exact ⟨n, ⟨hn, by omega, by omega⟩, rfl⟩

theorem denotes_signedByte : signedByte.Denotes IsSignedByte := by
  have hinteger : (integer "i8" (-128) 127).Denotes fun x i =>
      IsInteger x i ∧ -128 ≤ i ∧ i ≤ 127 :=
    denotes_integer "i8" (by decide) (by decide) (by decide)
  refine (hinteger.map Int8.ofInt).congr fun x b => ?_
  constructor
  · rintro ⟨i, ⟨hi, hlow, hhigh⟩, rfl⟩
    rwa [IsSignedByte, Int8.toInt_ofInt_of_le hlow (by omega)]
  · intro hb
    exact ⟨b.toInt, ⟨hb, b.le_toInt, by have := b.toInt_lt; omega⟩, b.ofInt_toInt.symm⟩

theorem denotes_boolean : boolean.Denotes IsBoolean := by
  refine denotes_typed (fun {first behind b rest} hfirst h => ?_)
    fun {text x b rest} hx hb _ => ?_
  · split at h
    · next htrue =>
      simp only [Reader.takes_bind, Reader.takes_letters, Reader.takes_pure] at h
      obtain ⟨-, _, rfl, rfl, rfl⟩ := h
      exact ⟨.boolean true, htrue ▸ .yes _, rfl⟩
    · next htrue =>
      obtain rfl : first = 'f' := by simpa [htrue] using hfirst
      simp only [Reader.takes_bind, Reader.takes_letters, Reader.takes_pure] at h
      obtain ⟨-, _, rfl, rfl, rfl⟩ := h
      exact ⟨.boolean false, .no _, rfl⟩
  · obtain rfl := hb
    cases hx with
    | yes => exact ⟨'t', _, rfl, rfl, by simp [Reader.takes_bind, Reader.takes_letters]⟩
    | no => exact ⟨'f', _, rfl, rfl, by simp [Reader.takes_bind, Reader.takes_letters]⟩

theorem denotes_string : string.Denotes IsString := by
  refine denotes_typed (fun {first behind s rest} hfirst h => ?_)
    fun {text x s rest} hx hs _ => ?_
  · obtain ⟨pieces, hpieces, hs⟩ := StringLiteral.takes_decode.mp h
    obtain rfl : first = '"' := by simpa using hfirst
    exact ⟨.string pieces, .string hpieces, pieces, rfl, hs⟩
  · obtain ⟨pieces, rfl, hs⟩ := hs
    cases hx with
    | string hpieces => exact ⟨_, _, rfl, rfl, StringLiteral.takes_decode.mpr ⟨_, hpieces, hs⟩⟩

theorem denotes_null : null.Denotes fun x _ => x = .null := by
  refine denotes_typed (fun {first behind u rest} hfirst h => ?_)
    fun {text x u rest} hx hu _ => ?_
  · obtain rfl := Reader.takes_letters.mp h
    obtain rfl : first = 'n' := by simpa using hfirst
    exact ⟨.null, .null rest, rfl⟩
  · obtain rfl := hu
    cases hx with
    | null => exact ⟨_, _, rfl, rfl, Reader.takes_letters.mpr rfl⟩

/-! ## Meanings are unique -/

theorem IsInteger.unique {x : Value} {i j : Int} (hi : IsInteger x i) (hj : IsInteger x j) :
    i = j := by
  obtain ⟨negative, digits, rfl, -, rfl⟩ := hi
  obtain ⟨negative', digits', h, -, rfl⟩ := hj
  cases h
  rfl

theorem IsNatural64.unique {x : Value} {m n : Nat} (hm : IsNatural64 x m) (hn : IsNatural64 x n) :
    m = n :=
  Int.ofNat_inj.mp (hm.1.unique hn.1)

theorem IsSignedByte.unique {x : Value} {b c : Int8} (hb : IsSignedByte x b)
    (hc : IsSignedByte x c) : b = c :=
  Int8.toInt_inj.mp (IsInteger.unique hb hc)

theorem IsBoolean.unique {x : Value} {b c : Bool} (hb : IsBoolean x b) (hc : IsBoolean x c) :
    b = c :=
  Value.boolean.inj (hb.symm.trans hc)

theorem IsString.unique {x : Value} {s t : String} (hs : IsString x s) (ht : IsString x t) :
    s = t := by
  obtain ⟨pieces, rfl, hs⟩ := hs
  obtain ⟨pieces', h, ht⟩ := ht
  cases h
  exact String.toList_inj.mp (hs.unique ht)

/-! ## Named choices -/

namespace Choices

variable {α : Type}

/-- A choice by its name, written as a string or as the only key of an object. -/
def Names (choices : Choices α) (x : Value) (choice : α) : Prop :=
  ∃ pieces name, (x = .string pieces ∨ x = .object [(pieces, .null)]) ∧
    Decodes pieces name.toList ∧ choices.lookup name = some choice

variable {choices : Choices α} {choice : α}

theorem takes_name : choices.name.Takes text choice rest ↔ ∃ pieces name,
    Pieces text pieces rest ∧ Decodes pieces name.toList ∧ choices.lookup name = some choice := by
  rw [name, Reader.takes_bind]
  constructor
  · rintro ⟨name, _, hdecode, h⟩
    obtain ⟨pieces, hpieces, hname⟩ := StringLiteral.takes_decode.mp hdecode
    split at h
    · next hchoice =>
      obtain ⟨rfl, rfl⟩ := Reader.takes_pure.mp h
      exact ⟨pieces, name, hpieces, hname, hchoice⟩
    · cases h
  · rintro ⟨pieces, name, hpieces, hname, hchoice⟩
    refine ⟨name, rest, StringLiteral.takes_decode.mpr ⟨pieces, hpieces, hname⟩, ?_⟩
    simp [choice?, hchoice]

theorem takes_member : choices.member.Takes text choice rest ↔
    ∃ quoted t₁ t₂ t₃, Blanks text ('"' :: quoted) ∧ choices.name.Takes quoted choice t₁ ∧
      Blanks t₁ (':' :: t₂) ∧ Padded t₂ .null t₃ ∧ Blanks t₃ ('}' :: rest) := by
  rw [member, Reader.takes_bind_peek]
  constructor
  · intro h
    split at h
    · next hquote =>
      obtain ⟨quoted, hskip, hquoted⟩ := blanks_of_head? hquote
      rw [Reader.takes_bind_skip, hskip, List.tail_cons] at h
      obtain ⟨choice, t₁, hname, h⟩ := Reader.takes_bind.mp h
      obtain ⟨_, t₂, hcolon, h⟩ := Reader.takes_bind.mp h
      obtain ⟨_, t₃, hnull, h⟩ := Reader.takes_bind.mp h
      obtain ⟨x, hx, rfl⟩ := denotes_null.sound hnull
      rw [Reader.takes_bind_peek] at h
      split at h
      · next hbrace =>
        obtain ⟨behind, hskip, hend⟩ := blanks_of_head? hbrace
        rw [Reader.takes_bind_skip, hskip, List.tail_cons] at h
        obtain ⟨rfl, rfl⟩ := Reader.takes_pure.mp h
        exact ⟨quoted, t₁, t₂, t₃, hquoted, hname, Reader.takes_colon.mp hcolon, hx, hend⟩
      · cases h
      · cases h
    · cases h
    · cases h
    · cases h
  · rintro ⟨quoted, t₁, t₂, t₃, hquoted, hname, hcolon, hx, hend⟩
    have hnull : null.Takes t₂ () t₃ :=
      denotes_null.complete hx rfl (ends_of_blanks hend (by decide))
    rw [(blanks_cons_iff rfl).mp hquoted]
    refine Reader.takes_bind_skip.mpr (Reader.takes_bind.mpr ⟨choice, t₁, hname, ?_⟩)
    refine Reader.takes_bind.mpr ⟨(), t₂, Reader.takes_colon.mpr hcolon, ?_⟩
    refine Reader.takes_bind.mpr ⟨(), t₃, hnull, ?_⟩
    rw [Reader.takes_bind_peek, (blanks_cons_iff rfl).mp hend]
    exact Reader.takes_bind_skip.mpr (Reader.takes_pure.mpr ⟨rfl, rfl⟩)

theorem denotes_reader : choices.reader.Denotes choices.Names := by
  constructor
  · intro text choice rest h
    rw [reader, Reader.takes_bind_peek] at h
    split at h
    · next hquote =>
      obtain ⟨quoted, hskip, hquoted⟩ := blanks_of_head? hquote
      rw [Reader.takes_bind_skip, hskip, List.tail_cons, takes_name] at h
      obtain ⟨pieces, name, hpieces, hname, hchoice⟩ := h
      exact ⟨_, ⟨_, hquoted, .string hpieces⟩, pieces, name, .inl rfl, hname, hchoice⟩
    · next hbrace =>
      obtain ⟨behind, hskip, hopen⟩ := blanks_of_head? hbrace
      rw [Reader.takes_bind_skip, hskip, List.tail_cons, takes_member] at h
      obtain ⟨quoted, t₁, t₂, t₃, hquoted, htakes, hcolon, ⟨bare, hbare, hnull⟩, hend⟩ := h
      obtain ⟨pieces, name, hpieces, hname, hchoice⟩ := takes_name.mp htakes
      exact ⟨_, ⟨_, hopen, .object ⟨quoted, t₁, hquoted, hpieces, hcolon⟩ hbare hnull (.done hend)⟩,
        pieces, name, .inr rfl, hname, hchoice⟩
    · cases h
    · cases h
  · rintro text x choice rest hx ⟨pieces, name, hform, hname, hchoice⟩ -
    rw [reader, Reader.takes_bind_peek]
    obtain ⟨bare, hbare, hx⟩ := hx
    rcases hform with rfl | rfl
    · cases hx with
      | string hpieces =>
        rw [(blanks_cons_iff rfl).mp hbare]
        exact Reader.takes_bind_skip.mpr (takes_name.mpr ⟨pieces, name, hpieces, hname, hchoice⟩)
    · cases hx with
      | object hkey hblanks hnull hmembers =>
        obtain ⟨quoted, behind, hquoted, hpieces, hcolon⟩ := hkey
        cases hmembers with
        | done hend =>
          have htakes := takes_name.mpr ⟨pieces, name, hpieces, hname, hchoice⟩
          rw [(blanks_cons_iff rfl).mp hbare]
          exact Reader.takes_bind_skip.mpr (takes_member.mpr
            ⟨quoted, behind, _, _, hquoted, htakes, hcolon, ⟨_, hblanks, hnull⟩, hend⟩)

theorem names_unique {x : Value} {choice choice' : α} (h : choices.Names x choice)
    (h' : choices.Names x choice') : choice = choice' := by
  obtain ⟨pieces, name, hform, hname, hchoice⟩ := h
  obtain ⟨pieces', name', hform', hname', hchoice'⟩ := h'
  obtain rfl : pieces = pieces' := by
    rcases hform with rfl | rfl <;> rcases hform' with h | h <;> cases h <;> rfl
  obtain rfl : name = name' := String.toList_inj.mp (hname.unique hname')
  exact Option.some.inj (hchoice.symm.trans hchoice')

end Choices

end CycleBench.Json
