import CycleBench.Proofs.ConfigDocument
import CycleBench.Proofs.Json.Literals
import CycleBench.Proofs.Json.Places
import CycleBench.Proofs.ManifestDocument

/-!
Numbers in documents. A number that is written in the place of a field is that field if it is an
integer in the range of the field, and otherwise the document is refused; no number is made to fit
(`numbers_read_exactly`). For each field this comes from what its numbers mean (`IntegerIn`) and
from the place that it has in the document (`Focus`).
-/

namespace CycleBench

open Json

/-! ## Ranges -/

namespace Json

/-- The literals of the integers in a range. -/
structure InRange (literal : List Char) (numeral : Numeral) (low high : Int) : Prop where
  plain : IsPlain literal
  low_le : low ≤ numeral.value
  le_high : numeral.value ≤ high

/-- Values of a type that are written as the integers in a range. -/
structure IntegerIn {β : Type} (Means : Value → β → Prop) (toInt : β → Int) (low high : Int) :
    Prop where
  means_iff : ∀ {x v}, Means x v ↔ IsInteger x (toInt v) ∧ low ≤ toInt v ∧ toInt v ≤ high
  exists_eq : ∀ {i}, low ≤ i → i ≤ high → ∃ v, toInt v = i

theorem integerIn_natural64 : IntegerIn IsNatural64 Nat.cast 0 (2 ^ 64 - 1) where
  means_iff {x n} := by
    unfold IsNatural64
    constructor
    · rintro ⟨hn, hlt⟩
      exact ⟨hn, by omega, by omega⟩
    · rintro ⟨hn, -, hle⟩
      exact ⟨hn, by omega⟩
  exists_eq {i} hlow _ := ⟨i.toNat, Int.toNat_of_nonneg hlow⟩

theorem integerIn_signedByte : IntegerIn IsSignedByte Int8.toInt (-128) 127 where
  means_iff {x b} := by
    have hlow := b.le_toInt
    have hhigh := b.toInt_lt
    unfold IsSignedByte
    constructor
    · exact fun hb => ⟨hb, by omega, by omega⟩
    · exact And.left
  exists_eq {i} hlow hhigh := ⟨Int8.ofInt i, Int8.toInt_ofInt_of_le hlow (by omega)⟩

variable {β : Type} {Means : Value → β → Prop} {toInt : β → Int} {low high : Int}
  {literal : List Char} {numeral : Numeral}

theorem IntegerIn.means_number_iff (h : IntegerIn Means toInt low high)
    (hspelled : SpellsNumeral literal numeral) {v : β} :
    Means (.number numeral) v ↔ InRange literal numeral low high ∧ toInt v = numeral.value := by
  rw [h.means_iff, hspelled.isInteger_iff]
  constructor
  · rintro ⟨⟨hplain, hv⟩, hlow, hhigh⟩
    exact ⟨⟨hplain, hv ▸ Int.cast_le.mpr hlow, hv ▸ Int.cast_le.mpr hhigh⟩, hv⟩
  · rintro ⟨⟨hplain, hlow, hhigh⟩, hv⟩
    rw [← hv, Int.cast_le] at hlow hhigh
    exact ⟨⟨hplain, hv⟩, hlow, hhigh⟩

theorem IntegerIn.exists_means_iff (h : IntegerIn Means toInt low high)
    (hspelled : SpellsNumeral literal numeral) :
    (∃ v, Means (.number numeral) v) ↔ InRange literal numeral low high := by
  simp only [h.means_number_iff hspelled]
  refine ⟨fun ⟨_, hrange, _⟩ => hrange, fun hrange => ?_⟩
  obtain ⟨i, hi⟩ := hspelled.exists_eq_value hrange.plain
  have hlow := hrange.low_le
  have hhigh := hrange.le_high
  rw [← hi, Int.cast_le] at hlow hhigh
  obtain ⟨v, rfl⟩ := h.exists_eq hlow hhigh
  exact ⟨v, hrange, hi⟩

end Json

/-! ## Numbers that are read -/

/-- What comes of a number in a document: it is put into what is read as the number that it is, and
if it is not an integer in the range, nothing is read. -/
structure ReadsExactly {α β : Type} (literal : List Char) (numeral : Numeral) (low high : Int)
    (toInt : β → Int) (put : β → α) (result : Except Failure α) : Prop where
  accepted_iff : (∃ a, result = .ok a) ↔ InRange literal numeral low high
  exact : ∀ a, result = .ok a → ∃ v, toInt v = numeral.value ∧ a = put v
  refused : (∀ a, result ≠ .ok a) → ∃ error, result = .error (.parse error)

theorem readsExactly_of_focus {α β : Type} {reader : Reader α} {Given : Value → α → Prop}
    {Means : Value → β → Prop} {toInt : β → Int} {low high : Int} {around : Value → Value}
    {modify : (β → β) → α → α} (hdenotes : reader.Denotes Given)
    (hunique : ∀ {x a a'}, Given x a → Given x a' → a = a')
    (hfocus : Focus around Given Means modify) (hmeans : IntegerIn Means toInt low high)
    {literal : List Char} {numeral : Numeral} (hspelled : SpellsNumeral literal numeral)
    {y : Value} {a : α} (ha : Given (around y) a) {text : String}
    (htext : IsDocument text.toList (around (.number numeral))) :
    ReadsExactly literal numeral low high toInt (fun v => modify (fun _ => v) a)
      ((parse reader text).mapError .parse) := by
  have hresult : ∀ a', (parse reader text).mapError Failure.parse = .ok a' ↔
      ∃ v, Means (.number numeral) v ∧ a' = modify (fun _ => v) a := by
    intro a'
    rw [← hfocus.given_iff hunique ha]
    constructor
    · intro h
      have hparse : parse reader text = .ok a' := by
        cases hparse : parse reader text <;> simp_all [Except.mapError]
      obtain ⟨x, hx, ha'⟩ := (parse_eq_ok_iff hdenotes).mp hparse
      rwa [htext.unique hx]
    · intro ha'
      rw [(parse_eq_ok_iff hdenotes).mpr ⟨_, htext, ha'⟩]
      rfl
  constructor
  · rw [← hmeans.exists_means_iff hspelled]
    constructor
    · rintro ⟨a', ha'⟩
      obtain ⟨v, hv, -⟩ := (hresult a').mp ha'
      exact ⟨v, hv⟩
    · rintro ⟨v, hv⟩
      exact ⟨_, (hresult _).mpr ⟨v, hv, rfl⟩⟩
  · intro a' ha'
    obtain ⟨v, hv, rfl⟩ := (hresult a').mp ha'
    exact ⟨v, ((hmeans.means_number_iff hspelled).mp hv).2, rfl⟩
  · intro hnone
    cases hparse : parse reader text with
    | ok a' => exact absurd (by rw [hparse]; rfl) (hnone a')
    | error error => exact ⟨error, rfl⟩

/-! ## The numbers of a configuration -/

variable {around inner : Value → Value}

theorem Reset.focus_window (h : Place ["window", "polarity"] "window" around) :
    Focus around Reset.Given IsNatural64 fun f reset => { reset with window := f reset.window } :=
  (lawful_slots.focus (.head _) h).congr given_iff

namespace Config

def fieldNames : List String :=
  ["max_sim_time", "reset", "signals", "trace_steps"]

theorem focus_maxSimTime (h : Place fieldNames "max_sim_time" around) :
    Focus around Given IsNatural64 fun f config =>
      { config with maxSimTime := f config.maxSimTime } :=
  (lawful_slots.focus (.head _) h).congr given_iff

theorem focus_reset (h : Place fieldNames "reset" around) :
    Focus around Given Reset.Given fun f config => { config with reset := f config.reset } :=
  (lawful_slots.focus (.tail _ (.head _)) h).congr given_iff

end Config

/-! ## The numbers of a manifest -/

namespace Program

theorem focus_resultCode (h : Place fieldNames "result_code" around) :
    Focus around Given IsSignedByte fun f program =>
      { program with resultCode := f program.resultCode } :=
  (lawful_slots.focus (.head _) h).congr given_iff

theorem focus_causeCode (h : Place fieldNames "cause_code" around) :
    Focus around Given IsSignedByte fun f program =>
      { program with causeCode := f program.causeCode } :=
  (lawful_slots.focus (.tail _ (.head _)) h).congr given_iff

theorem focus_latency (h : Place fieldNames "latency" around) :
    Focus around Given IsNatural64 fun f program => { program with latency := f program.latency } :=
  (lawful_slots.focus (.tail _ (.tail _ (.head _))) h).congr given_iff

end Program

theorem SuiteCase.focus_program (h : Place fieldNames "program" around) :
    Focus around Given Program.Given fun f test => { test with program := f test.program } :=
  (lawful_slots.focus (.tail _ (.tail _ (.head _))) h).congr given_iff

namespace Manifest

/-- Changes the program of the case with a number. -/
def modifyProgram (manifest : Manifest) (i : Nat) (f : Program → Program) : Manifest where
  cases := manifest.cases.modify i fun test => { test with program := f test.program }

/-- The place of the program in the case with a number. -/
inductive ProgramPlace : (Value → Value) → Nat → Prop
  | mk {outer inner before after} (hcases : Place fieldNames "cases" outer)
    (hprogram : Place SuiteCase.fieldNames "program" inner) :
    ProgramPlace (fun y => outer (.list (before ++ inner y :: after))) before.length

theorem focus_cases (h : Place fieldNames "cases" around) :
    Focus around Given (IsList SuiteCase.Given) fun f manifest =>
      { manifest with cases := f manifest.cases } := by
  intro y manifest hmanifest
  obtain ⟨cases, hcases, hreplace⟩ :=
    (lawful_slots.focus (.head _) h).congr given_iff y manifest hmanifest
  refine ⟨cases.toList, hcases, fun y' f hf => ?_⟩
  simpa using hreplace y' (fun cases => (f cases.toList).toArray) hf

theorem ProgramPlace.focus {i : Nat} (h : ProgramPlace around i) :
    Focus around Given Program.Given fun f manifest => manifest.modifyProgram i f := by
  cases h with
  | mk hcases hprogram =>
    exact (focus_cases hcases).trans ((focus_item _ _).trans (SuiteCase.focus_program hprogram))

end Manifest

/-- **Numbers are read exactly or not at all.** Take any literal of a number, of whatever length,
and a document that would be read with something in the place of one of its numbers. With the
literal in this place the document is read exactly if the literal has neither fraction nor exponent,
is not minus zero and stands for a number in the range of the field. This number is then what the
field holds, and all else is as it was. Otherwise the document is refused. -/
theorem numbers_read_exactly {literal : List Char} {numeral : Numeral}
    (h : SpellsNumeral literal numeral) (text : String) :
    (∀ around y config, Place Config.fieldNames "max_sim_time" around →
      Config.Given (around y) config → IsDocument text.toList (around (.number numeral)) →
      ReadsExactly literal numeral 0 (2 ^ 64 - 1) Nat.cast
        (fun n => { config with maxSimTime := n }) (Config.ofJson text)) ∧
    (∀ around inner y config, Place Config.fieldNames "reset" around →
      Place ["window", "polarity"] "window" inner → Config.Given (around (inner y)) config →
      IsDocument text.toList (around (inner (.number numeral))) →
      ReadsExactly literal numeral 0 (2 ^ 64 - 1) Nat.cast
        (fun n => { config with reset := { config.reset with window := n } })
        (Config.ofJson text)) ∧
    ∀ around inner y manifest i, Manifest.ProgramPlace around i →
      Manifest.Given (around (inner y)) manifest →
      IsDocument text.toList (around (inner (.number numeral))) →
      (Place Program.fieldNames "latency" inner →
        ReadsExactly literal numeral 0 (2 ^ 64 - 1) Nat.cast
          (fun n => manifest.modifyProgram i fun program => { program with latency := n })
          (Manifest.ofJson text)) ∧
      (Place Program.fieldNames "result_code" inner →
        ReadsExactly literal numeral (-128) 127 Int8.toInt
          (fun r => manifest.modifyProgram i fun program => { program with resultCode := r })
          (Manifest.ofJson text)) ∧
      (Place Program.fieldNames "cause_code" inner →
        ReadsExactly literal numeral (-128) 127 Int8.toInt
          (fun c => manifest.modifyProgram i fun program => { program with causeCode := c })
          (Manifest.ofJson text)) := by
  refine ⟨fun around y config hplace hgiven htext => ?_,
    fun around inner y config hplace hinner hgiven htext => ?_,
    fun around inner y manifest i hplace hgiven htext =>
      ⟨fun hinner => ?_, fun hinner => ?_, fun hinner => ?_⟩⟩
  · exact readsExactly_of_focus Config.denotes_document Config.given_unique
      (Config.focus_maxSimTime hplace) integerIn_natural64 h hgiven htext
  · exact readsExactly_of_focus Config.denotes_document Config.given_unique
      ((Config.focus_reset hplace).trans (Reset.focus_window hinner)) integerIn_natural64 h hgiven
      htext
  · exact readsExactly_of_focus Manifest.denotes_document Manifest.given_unique
      (hplace.focus.trans (Program.focus_latency hinner)) integerIn_natural64 h hgiven htext
  · exact readsExactly_of_focus Manifest.denotes_document Manifest.given_unique
      (hplace.focus.trans (Program.focus_resultCode hinner)) integerIn_signedByte h hgiven htext
  · exact readsExactly_of_focus Manifest.denotes_document Manifest.given_unique
      (hplace.focus.trans (Program.focus_causeCode hinner)) integerIn_signedByte h hgiven htext

/-- The greatest bound is read, and the number after it is not made to fit. -/
theorem greatest_bound_read :
    Config.ofJson "[18446744073709551615]" = .ok { maxSimTime := 18446744073709551615 } ∧
      ∃ error, Config.ofJson "[18446744073709551616]" = .error (.parse error) := by
  have hplace : Place Config.fieldNames "max_sim_time" fun y => .list ([] ++ y :: []) := .item rfl
  have hgiven : Config.Given (.list [integerValue 0]) { maxSimTime := 0 } :=
    ⟨some _, none, none, none, @Assigns.list _ [integerValue 0] 3 rfl,
      ⟨isInteger_integerValue 0, by decide⟩, rfl, rfl, rfl⟩
  have hspelled (n : Nat) :
      SpellsNumeral (Nat.toDigits 10 n) ⟨false, Nat.toDigits 10 n, none, none⟩ := by
    simpa using SpellsNumeral.mk (.head _) (isWhole_toDigits n) .none .none
  have hplain (n : Nat) : IsPlain (Nat.toDigits 10 n) :=
    (hspelled n).isPlain_iff.mpr ⟨rfl, rfl, nofun⟩
  have hvalue (n : Nat) : Numeral.value ⟨false, Nat.toDigits 10 n, none, none⟩ = n := by
    rw [Numeral.value_of_plain rfl rfl, Nat.ofDigitChars_ten_toDigits]
    exact one_mul _
  have hread (n : Nat) (text : String) (htext : text.toList = '[' :: (Nat.toDigits 10 n ++ [']'])) :
      ReadsExactly (Nat.toDigits 10 n) ⟨false, Nat.toDigits 10 n, none, none⟩ 0 (2 ^ 64 - 1)
        Nat.cast (fun n => { maxSimTime := n }) (Config.ofJson text) := by
    refine (numbers_read_exactly (hspelled n) text).1 _ _ _ hplace hgiven (htext ▸ ?_)
    exact ⟨[], ⟨_, .refl _, .list (.refl _) (.number (hspelled n) _) (.done (.refl _))⟩, .refl _⟩
  constructor
  · have hlast := hread 18446744073709551615 "[18446744073709551615]" (by decide +kernel)
    obtain ⟨config, hconfig⟩ := hlast.accepted_iff.mpr
      ⟨hplain _, by rw [hvalue]; norm_num, by rw [hvalue]; norm_num⟩
    obtain ⟨n, hn, rfl⟩ := hlast.exact config hconfig
    obtain rfl : n = 18446744073709551615 := by exact_mod_cast hn.trans (hvalue _)
    exact hconfig
  · have hnext := hread 18446744073709551616 "[18446744073709551616]" (by decide +kernel)
    refine hnext.refused fun config hconfig => ?_
    have hle := (hnext.accepted_iff.mp ⟨config, hconfig⟩).le_high
    rw [hvalue] at hle
    norm_num at hle

end CycleBench
