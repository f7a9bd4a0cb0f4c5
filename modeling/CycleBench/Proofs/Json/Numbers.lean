import CycleBench.Proofs.Json.Reading

/-!
Numbers. A numeral is read off a text exactly where one is spelled (`sound_readFrom`,
`complete_readFrom`), and its value is an integer when it is spelled as one.
-/

namespace CycleBench.Json

variable {text rest : List Char}

/-! ## Digits -/

theorem IsDigits.head?_ne {ds : List Char} (h : IsDigits ds) {c : Char} (hc : c.isDigit = false)
    (rest : List Char) : (ds ++ rest).head? ≠ some c := by
  obtain ⟨d, later, rfl⟩ := List.exists_cons_of_ne_nil h.1
  rintro ⟨⟩
  exact absurd (h.2 _ (.head _)) (by simp [hc])

namespace Numeral

/-- No digit comes next. -/
def NoDigit (text : List Char) : Prop :=
  ∀ c ∈ text.head?, c.isDigit = false

theorem takes_bind_look {β : Type} {next : Option Char → Reader β} {value : β} :
    (look >>= next).Takes text value rest ↔ (next text.head?).Takes text value rest := by
  rw [Reader.takes_bind]
  simp [Reader.Takes, taken?, look]

theorem takes_digits {ds : List Char} : digits.Takes text ds rest ↔
    text = ds ++ rest ∧ (∀ d ∈ ds, d.isDigit = true) ∧ NoDigit rest := by
  have htakes : digits.Takes text ds rest ↔
      text.takeWhile Char.isDigit = ds ∧ text.dropWhile Char.isDigit = rest := by
    simp [Reader.Takes, taken?, digits]
  rw [htakes]
  constructor
  · rintro ⟨rfl, rfl⟩
    refine ⟨List.takeWhile_append_dropWhile.symm, fun d => List.mem_takeWhile_imp, fun c hc => ?_⟩
    have hnot := List.head?_dropWhile_not Char.isDigit text
    rw [Option.mem_def.mp hc] at hnot
    exact hnot
  · rintro ⟨rfl, hdigits, hrest⟩
    have hstop : rest.takeWhile Char.isDigit = [] ∧ rest.dropWhile Char.isDigit = rest := by
      cases rest with
      | nil => exact ⟨rfl, rfl⟩
      | cons c rest => simp [hrest c rfl]
    rw [List.takeWhile_append_of_pos hdigits, List.dropWhile_append_of_pos hdigits, hstop.1,
      hstop.2, List.append_nil]
    exact ⟨rfl, rfl⟩

/-! ## The parts of a numeral -/

theorem takes_wholeFrom {first : Char} (hfirst : first.isDigit = true) {ds : List Char} :
    (wholeFrom first).Takes text ds rest ↔
      first :: text = ds ++ rest ∧ IsWhole ds ∧ NoDigit rest := by
  unfold wholeFrom
  split
  · next hzero =>
    subst hzero
    have hds : ('0' :: text = ds ++ rest ∧ IsWhole ds ∧ NoDigit rest) ↔
        ds = ['0'] ∧ rest = text ∧ NoDigit text := by
      constructor
      · rintro ⟨htext, rfl | ⟨⟨hne, -⟩, hhead⟩, hrest⟩
        · obtain rfl := (List.cons.inj htext).2
          exact ⟨rfl, rfl, hrest⟩
        · obtain ⟨d, later, rfl⟩ := List.exists_cons_of_ne_nil hne
          exact absurd (List.cons.inj htext).1 fun h => hhead (h ▸ rfl)
      · rintro ⟨rfl, rfl, hrest⟩
        exact ⟨rfl, .inl rfl, hrest⟩
    rw [hds, takes_bind_look]
    cases text with
    | nil => simp [NoDigit]
    | cons d text =>
      cases hd : d.isDigit <;> simp [NoDigit, hd]
  · next hzero =>
    simp only [Reader.takes_bind, takes_digits, Reader.takes_pure]
    constructor
    · rintro ⟨ds, _, ⟨rfl, hdigits, hrest⟩, rfl, rfl⟩
      refine ⟨rfl, .inr ⟨⟨List.cons_ne_nil _ _, ?_⟩, by simpa using hzero⟩, hrest⟩
      exact List.forall_mem_cons.mpr ⟨hfirst, hdigits⟩
    · rintro ⟨htext, hwhole, hrest⟩
      obtain rfl | ⟨⟨hne, hdigits⟩, -⟩ := hwhole
      · exact absurd (List.cons.inj htext).1 hzero
      · obtain ⟨d, later, rfl⟩ := List.exists_cons_of_ne_nil hne
        obtain ⟨rfl, rfl⟩ := List.cons.inj htext
        exact ⟨later, rest, ⟨rfl, (List.forall_mem_cons.mp hdigits).2, hrest⟩, rfl, rfl⟩

theorem takes_wholeAfterSign {atEnd : Reason} {ds : List Char} :
    (wholeAfterSign atEnd).Takes text ds rest ↔ text = ds ++ rest ∧ IsWhole ds ∧ NoDigit rest := by
  rw [wholeAfterSign, takes_bind_look]
  cases text with
  | nil =>
    simp only [List.head?_nil, Reader.not_takes_failNext, false_iff]
    rintro ⟨htext, hwhole, -⟩
    obtain ⟨d, later, rfl, -⟩ := hwhole.eq_cons
    cases htext
  | cons c text =>
    simp only [List.head?_cons]
    split
    · next hc =>
      rw [Reader.takes_bind_skip]
      exact takes_wholeFrom hc
    · next hc =>
      simp only [Reader.not_takes_failNext, false_iff]
      rintro ⟨htext, hwhole, -⟩
      obtain ⟨d, later, rfl, hd⟩ := hwhole.eq_cons
      exact hc ((List.cons.inj htext).1 ▸ hd)

/-- Digits of which there has to be one. -/
theorem takes_someDigits {α : Type} {atEnd : Reason} {f : List Char → α} {value : α} :
    (digits >>= fun
      | [] => look >>= fun
        | none => .failNext atEnd
        | some _ => .failNext .invalidNumber
      | ds => pure (f ds) : Reader α).Takes text value rest ↔
      ∃ ds, text = ds ++ rest ∧ IsDigits ds ∧ NoDigit rest ∧ value = f ds := by
  rw [Reader.takes_bind]
  constructor
  · rintro ⟨ds, behind, hdigits, h⟩
    obtain ⟨rfl, hall, hrest⟩ := takes_digits.mp hdigits
    split at h
    · rw [takes_bind_look] at h
      split at h <;> cases h
    · next hne =>
      obtain ⟨rfl, rfl⟩ := Reader.takes_pure.mp h
      exact ⟨ds, rfl, ⟨hne, hall⟩, hrest, rfl⟩
  · rintro ⟨ds, rfl, ⟨hne, hdigits⟩, hrest, rfl⟩
    refine ⟨ds, rest, takes_digits.mpr ⟨rfl, hdigits, hrest⟩, ?_⟩
    split
    · exact absurd rfl hne
    · exact Reader.takes_pure.mpr ⟨rfl, rfl⟩

theorem sound_readFraction {atEnd : Reason} {fraction : Option (List Char)}
    (h : (readFraction atEnd).Takes text fraction rest) :
    ∃ point, text = point ++ rest ∧ SpellsFraction point fraction := by
  rw [readFraction, takes_bind_look] at h
  split at h
  · next hpoint =>
    obtain ⟨behind, rfl⟩ := List.head?_eq_some_iff.mp hpoint
    rw [Reader.takes_bind_skip] at h
    obtain ⟨ds, rfl, hdigits, -, rfl⟩ := takes_someDigits.mp h
    exact ⟨'.' :: ds, rfl, .some hdigits⟩
  · obtain ⟨rfl, rfl⟩ := Reader.takes_pure.mp h
    exact ⟨[], rfl, .none⟩

theorem complete_readFraction (atEnd : Reason) {point : List Char} {fraction : Option (List Char)}
    (h : SpellsFraction point fraction) (hdigit : NoDigit rest) (hpoint : rest.head? ≠ some '.') :
    (readFraction atEnd).Takes (point ++ rest) fraction rest := by
  rw [readFraction, takes_bind_look]
  cases h with
  | none =>
    rw [List.nil_append]
    split
    · next h => exact absurd h hpoint
    · exact Reader.takes_pure.mpr ⟨rfl, rfl⟩
  | some h =>
    simp only [List.cons_append, List.head?_cons]
    rw [Reader.takes_bind_skip]
    exact takes_someDigits.mpr ⟨_, rfl, h, hdigit, rfl⟩

theorem sound_readExponent {atEnd : Reason} {exponent : Option (Bool × List Char)}
    (h : (readExponent atEnd).Takes text exponent rest) :
    ∃ power, text = power ++ rest ∧ SpellsExponent power exponent := by
  rw [readExponent, takes_bind_look] at h
  split at h
  · next hhead =>
    obtain ⟨mark, behind, rfl, hmark⟩ : ∃ mark behind, text = mark :: behind ∧
        (mark = 'e' ∨ mark = 'E') := by
      cases text with
      | nil => simp at hhead
      | cons mark behind => exact ⟨mark, behind, rfl, by simpa using hhead⟩
    rw [Reader.takes_bind_skip, takes_bind_look, List.tail_cons] at h
    by_cases hsign : behind.head? = some '-' ∨ behind.head? = some '+'
    · rw [if_pos (by simpa using hsign), Reader.takes_bind_skip] at h
      obtain ⟨ds, hds, hdigits, -, rfl⟩ := takes_someDigits.mp h
      rcases hsign with hsign | hsign <;> obtain ⟨digits, rfl⟩ := List.head?_eq_some_iff.mp hsign
      · obtain rfl : digits = ds ++ rest := hds
        exact ⟨mark :: ['-'] ++ ds, by simp, .some hmark (by simp) hdigits⟩
      · obtain rfl : digits = ds ++ rest := hds
        exact ⟨mark :: ['+'] ++ ds, by simp, .some hmark (by simp) hdigits⟩
    · rw [if_neg (by simpa using hsign)] at h
      obtain ⟨ds, rfl, hdigits, -, rfl⟩ := takes_someDigits.mp h
      refine ⟨mark :: [] ++ ds, rfl, ?_⟩
      rw [decide_eq_false (not_or.mp hsign).1]
      exact .some hmark (by decide) hdigits
  · obtain ⟨rfl, rfl⟩ := Reader.takes_pure.mp h
    exact ⟨[], rfl, .none⟩

theorem complete_readExponent (atEnd : Reason) {power : List Char}
    {exponent : Option (Bool × List Char)} (h : SpellsExponent power exponent)
    (hdigit : NoDigit rest) (hmark : rest.head? ≠ some 'e' ∧ rest.head? ≠ some 'E') :
    (readExponent atEnd).Takes (power ++ rest) exponent rest := by
  rw [readExponent, takes_bind_look]
  cases h with
  | none => simp [hmark]
  | some hmark hsign h =>
    next mark sign down ds =>
    rw [if_pos (by simpa using hmark), Reader.takes_bind_skip, takes_bind_look]
    simp only [List.mem_cons, Prod.mk.injEq, List.not_mem_nil, or_false] at hsign
    rcases hsign with ⟨rfl, rfl⟩ | ⟨rfl, rfl⟩ | ⟨rfl, rfl⟩
    · have hminus : (ds ++ rest).head? ≠ some '-' := h.head?_ne rfl rest
      have hplus : (ds ++ rest).head? ≠ some '+' := h.head?_ne rfl rest
      rw [if_neg (by simp [-List.head?_append, hminus, hplus])]
      exact takes_someDigits.mpr ⟨ds, rfl, h, hdigit, by simp [-List.head?_append, hminus]⟩
    · rw [if_pos (by simp), Reader.takes_bind_skip]
      exact takes_someDigits.mpr ⟨ds, rfl, h, hdigit, by simp⟩
    · rw [if_pos (by simp), Reader.takes_bind_skip]
      exact takes_someDigits.mpr ⟨ds, rfl, h, hdigit, by simp⟩

/-! ## Numerals -/

/-- Where a numeral may end. -/
def Stops (text : List Char) : Prop :=
  NoDigit text ∧ ∀ c ∈ text.head?, c ≠ '.' ∧ c ≠ 'e' ∧ c ≠ 'E'

theorem stops_of_ends (h : Ends text) : Stops text := by
  have hc : ∀ c ∈ text.head?, c.isDigit = false ∧ c ≠ '.' ∧ c ≠ 'e' ∧ c ≠ 'E' := by
    intro c hc
    have hend := h c hc
    simp only [endings, List.mem_cons, List.not_mem_nil, or_false] at hend
    rcases hend with rfl | rfl | rfl | rfl | rfl | rfl | rfl <;> decide
  exact ⟨fun c h => (hc c h).1, fun c h => (hc c h).2⟩

theorem takes_readFrom {atEnd : Reason} {first : Char} {numeral : Numeral} :
    (readFrom atEnd first).Takes text numeral rest ↔ ∃ whole fraction exponent t₁ t₂,
      (if first = '-' then wholeAfterSign atEnd else wholeFrom first).Takes text whole t₁ ∧
      (readFraction atEnd).Takes t₁ fraction t₂ ∧ (readExponent atEnd).Takes t₂ exponent rest ∧
      numeral = { negative := first = '-', whole, fraction, exponent } := by
  unfold readFrom
  by_cases hminus : first = '-'
  all_goals
    simp only [hminus, if_true, if_false, Reader.takes_bind, Reader.takes_pure]
    constructor
    · rintro ⟨whole, t₁, hwhole, fraction, t₂, hfraction, exponent, _, hexponent, rfl, rfl⟩
      exact ⟨whole, fraction, exponent, t₁, t₂, hwhole, hfraction, hexponent, rfl⟩
    · rintro ⟨whole, fraction, exponent, t₁, t₂, hwhole, hfraction, hexponent, rfl⟩
      exact ⟨whole, t₁, hwhole, fraction, t₂, hfraction, exponent, _, hexponent, rfl, rfl⟩

theorem sound_readFrom {atEnd : Reason} {first : Char} (hfirst : isStart first = true)
    {numeral : Numeral} (h : (readFrom atEnd first).Takes text numeral rest) :
    ∃ spelling, first :: text = spelling ++ rest ∧ SpellsNumeral spelling numeral := by
  obtain ⟨whole, fraction, exponent, t₁, t₂, hwhole, hfraction, hexponent, rfl⟩ :=
    takes_readFrom.mp h
  obtain ⟨point, rfl, hpoint⟩ := sound_readFraction hfraction
  obtain ⟨power, rfl, hpower⟩ := sound_readExponent hexponent
  by_cases hminus : first = '-'
  · subst hminus
    obtain ⟨rfl, hwhole, -⟩ := takes_wholeAfterSign.mp hwhole
    exact ⟨['-'] ++ whole ++ point ++ power, by simp, .mk (by simp) hwhole hpoint hpower⟩
  · rw [if_neg hminus] at hwhole
    have hdigit : first.isDigit = true := by simpa [isStart, hminus] using hfirst
    obtain ⟨htext, hwhole, -⟩ := (takes_wholeFrom hdigit).mp hwhole
    exact ⟨[] ++ whole ++ point ++ power, by simp [htext],
      .mk (by simp [hminus]) hwhole hpoint hpower⟩

theorem SpellsExponent.stops {power : List Char} {exponent : Option (Bool × List Char)}
    (h : SpellsExponent power exponent) (hstops : Stops rest) :
    NoDigit (power ++ rest) ∧ (power ++ rest).head? ≠ some '.' := by
  cases h with
  | none => exact ⟨hstops.1, fun h => (hstops.2 _ h).1 rfl⟩
  | some hmark => rcases hmark with rfl | rfl <;> simp [NoDigit]

theorem complete_readFrom (atEnd : Reason) {first : Char} {spelling : List Char}
    {numeral : Numeral} (h : SpellsNumeral spelling numeral) (hstops : Stops rest)
    (hfirst : first :: text = spelling ++ rest) :
    (readFrom atEnd first).Takes text numeral rest := by
  rw [takes_readFrom]
  obtain ⟨hsign, hwhole, hpoint, hpower⟩ := h
  next sign negative whole fraction exponent point power =>
  have hexponent := complete_readExponent atEnd hpower hstops.1
    ⟨fun h => (hstops.2 _ h).2.1 rfl, fun h => (hstops.2 _ h).2.2 rfl⟩
  have hbehind := SpellsExponent.stops hpower hstops
  have hfraction := complete_readFraction atEnd hpoint hbehind.1 hbehind.2
  have hdigit : NoDigit (point ++ (power ++ rest)) := by
    cases hpoint with
    | none => exact hbehind.1
    | some => simp [NoDigit]
  simp only [List.mem_cons, Prod.mk.injEq, List.not_mem_nil, or_false] at hsign
  rcases hsign with ⟨rfl, rfl⟩ | ⟨rfl, rfl⟩
  · obtain ⟨d, later, rfl, hd⟩ := hwhole.eq_cons
    obtain ⟨rfl, rfl⟩ : first = d ∧ text = later ++ (point ++ (power ++ rest)) := by
      simpa using hfirst
    have hminus : first ≠ '-' := by
      rintro rfl
      cases hd
    refine ⟨first :: later, fraction, exponent, _, _, ?_, hfraction, hexponent, by simp [hminus]⟩
    rw [if_neg hminus]
    exact (takes_wholeFrom hd).mpr ⟨rfl, hwhole, hdigit⟩
  · obtain ⟨rfl, rfl⟩ : first = '-' ∧ text = whole ++ (point ++ (power ++ rest)) := by
      simpa using hfirst
    exact ⟨whole, fraction, exponent, _, _, takes_wholeAfterSign.mpr ⟨rfl, hwhole, hdigit⟩,
      hfraction, hexponent, rfl⟩

end Numeral

/-! ## Integers -/

namespace Number

theorem takes_readFrom {first : Char} {number : Number} :
    (readFrom first).Takes text number rest ↔ ∃ numeral,
      (Numeral.readFrom .endInValue first).Takes text numeral rest ∧
        ofNumeral numeral rest = .ok number := by
  constructor
  · intro h
    obtain ⟨_, hread, rfl, rfl⟩ := h.exists_ok
    unfold readFrom at hread
    split at hread
    · cases hread
    · next taken htaken =>
      split at hread
      · cases hread
      · next hnumber =>
        cases hread
        exact ⟨taken.value, Reader.takes_of_ok htaken, hnumber⟩
  · rintro ⟨_, htakes, hnumber⟩
    obtain ⟨taken, htaken, rfl, rfl⟩ := htakes.exists_ok
    simp [Reader.Takes, readFrom, htaken, hnumber, taken?]

/-- A floating-point number is no integer in any range. -/
theorem inRange_floatingOf {numeral : Numeral} {number : Number}
    (h : floatingOf numeral rest = .ok number) {expected : String} {low high i : Int} :
    number.inRange expected low high ≠ .ok i := by
  have hfloating : ∃ below magnitude, number = floating below magnitude := by
    unfold floatingOf at h
    dsimp only at h
    split at h
    · split at h <;> cases h
      exact ⟨_, _, rfl⟩
    · split at h
      · split at h <;> cases h
        exact ⟨_, _, rfl⟩
      · split at h <;> cases h
        exact ⟨_, _, rfl⟩
  obtain ⟨below, magnitude, rfl⟩ := hfloating
  nofun

theorem isInteger_number_iff {numeral : Numeral} {i : Int} :
    IsInteger (.number numeral) i ↔ numeral.fraction = none ∧ numeral.exponent = none ∧
      let n : Int := decimalValue numeral.whole
      (numeral.negative = true → n ≠ 0) ∧ i = if numeral.negative then -n else n := by
  constructor
  · rintro ⟨negative, digits, h, hn⟩
    cases h
    exact ⟨rfl, rfl, hn⟩
  · obtain ⟨negative, whole, fraction, exponent⟩ := numeral
    rintro ⟨rfl, rfl, hn⟩
    exact ⟨negative, whole, rfl, hn⟩

theorem inRange_natural_iff {expected : String} {low high i : Int} {n : Nat} :
    (natural n).inRange expected low high = .ok i ↔ i = n ∧ i ≤ high := by
  simp only [inRange]
  split <;> simp <;> omega

theorem inRange_negative_iff {expected : String} {low high i : Int} {n : Nat} :
    (negative n).inRange expected low high = .ok i ↔ i = -n ∧ low ≤ i := by
  simp only [inRange]
  split <;> simp <;> omega

/-- The numbers that are integers in a range are those spelled as one. -/
theorem inRange_ofNumeral_iff {expected : String} {low high i : Int} (hlow : -2 ^ 63 ≤ low)
    (hzero : low ≤ 0 ∧ 0 ≤ high) (hhigh : high < 2 ^ 64) {numeral : Numeral} :
    (∃ number, ofNumeral numeral rest = .ok number ∧ number.inRange expected low high = .ok i) ↔
      IsInteger (.number numeral) i ∧ low ≤ i ∧ i ≤ high := by
  have hlimit : naturalLimit = 2 ^ 64 := rfl
  have hfloating : ¬ ∃ number, floatingOf numeral rest = .ok number ∧
      number.inRange expected low high = .ok i := fun ⟨_, h, hi⟩ => inRange_floatingOf h hi
  rw [isInteger_number_iff]
  unfold ofNumeral
  generalize decimalValue numeral.whole = n
  by_cases hparts : numeral.fraction = none ∧ numeral.exponent = none ∧ n < naturalLimit
  · simp only [hparts, and_self, if_true, true_and]
    cases numeral.negative with
    | false =>
      simp [inRange_natural_iff]
      omega
    | true =>
      by_cases hn : n = 0 ∨ naturalLimit / 2 < n
      · rw [if_neg (by decide), if_pos (by simpa using hn), iff_false_left hfloating]
        rintro ⟨⟨hne, hi⟩, hle, hge⟩
        have hne := hne rfl
        rw [if_pos rfl] at hi
        omega
      · simp [hn, inRange_negative_iff]
        omega
  · rw [if_neg hparts, iff_false_left hfloating]
    rintro ⟨⟨hfraction, hexponent, -, hi⟩, hle, hge⟩
    have hn : naturalLimit ≤ n := not_lt.mp fun hn => hparts ⟨hfraction, hexponent, hn⟩
    split at hi <;> omega

end Number

end CycleBench.Json
