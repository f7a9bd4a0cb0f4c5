import CycleBench.Proofs.Json.Reading
import Mathlib.Tactic.IntervalCases

/-!
String literals. From behind its opening quote a literal is decoded to what its pieces stand for
(`takes_decode`) or skipped whatever they stand for (`takes_skip`).
-/

namespace CycleBench.Json.StringLiteral

variable {text rest : List Char}

/-! ## Digits and escapes -/

theorem hexValue?_eq_some_iff {c : Char} {n : Nat} : hexValue? c = some n ↔ IsHex c n := by
  constructor
  · intro h
    have hrange : ∀ {low high : Char}, (low ≤ c ∧ c ≤ high) ↔
        low.toNat ≤ c.toNat ∧ c.toNat ≤ high.toNat := Iff.rfl
    have hc : c = Char.ofNat c.toNat := (Char.ofNat_toNat c).symm
    simp only [hexValue?, hrange] at h
    generalize c.toNat = k at h hc
    subst hc
    -- one case for each of the three ranges, and in it one for each digit
    split_ifs at h with hk hk hk
    all_goals
      obtain ⟨hlow, hhigh⟩ := hk
      simp only [Char.reduceToNat] at hlow hhigh
      interval_cases k <;> cases h <;> exact ⟨by decide, by decide⟩
  · rintro ⟨hn, rfl | rfl⟩ <;> interval_cases n <;> rfl

theorem unitValue?_eq_some_iff {a b c d : Char} {unit : Nat} :
    unitValue? a b c d = some unit ↔ IsUnit a b c d unit := by
  simp only [unitValue?, IsUnit, Option.bind_eq_bind, Option.bind_eq_some_iff,
    hexValue?_eq_some_iff, Option.pure_def, Option.some.injEq]
  constructor
  · rintro ⟨i, hi, j, hj, k, hk, l, hl, rfl⟩
    exact ⟨i, j, k, l, hi, hj, hk, hl, by omega⟩
  · rintro ⟨i, j, k, l, hi, hj, hk, hl, rfl⟩
    exact ⟨i, hi, j, hj, k, hk, l, hl, by omega⟩

theorem shortEscape?_eq_some_iff {c d : Char} :
    shortEscape? c = some d ↔ (c, d) ∈ shortEscapes := by
  constructor
  · intro h
    unfold shortEscape? at h
    split at h <;> cases h <;> decide
  · intro h
    simp only [shortEscapes, List.mem_cons, Prod.mk.injEq, List.not_mem_nil, or_false] at h
    rcases h with ⟨rfl, rfl⟩ | ⟨rfl, rfl⟩ | ⟨rfl, rfl⟩ | ⟨rfl, rfl⟩ | ⟨rfl, rfl⟩ | ⟨rfl, rfl⟩ |
      ⟨rfl, rfl⟩ | ⟨rfl, rfl⟩ <;> rfl

theorem isHighSurrogate_iff {unit : Nat} : isHighSurrogate unit = true ↔ IsHighSurrogate unit := by
  simp [isHighSurrogate, IsHighSurrogate]

theorem isLowSurrogate_iff {unit : Nat} : isLowSurrogate unit = true ↔ IsLowSurrogate unit := by
  simp [isLowSurrogate, IsLowSurrogate]

theorem takes_codeUnit {unit : Nat} : codeUnit.Takes text unit rest ↔
    ∃ a b c d, text = a :: b :: c :: d :: rest ∧ IsUnit a b c d unit := by
  simp only [← unitValue?_eq_some_iff]
  unfold Reader.Takes codeUnit
  split
  · next a b c d behind =>
    cases h : unitValue? a b c d <;> simp [taken?, h, and_comm]
  · next h =>
    simp only [taken?, reduceCtorEq, false_iff]
    rintro ⟨a, b, c, d, rfl, -⟩
    exact h _ _ _ _ _ rfl

theorem takes_expect {c : Char} {u : Unit} : (expect c).Takes text u rest ↔ text = c :: rest := by
  unfold Reader.Takes expect
  cases text with
  | nil => simp [taken?]
  | cons d behind =>
    simp only
    split <;> next h => simp [taken?, h]

theorem takes_unicodeEscape {c : Char} : unicodeEscape.Takes text c rest ↔
    (∃ unit, codeUnit.Takes text unit rest ∧ ¬ IsHighSurrogate unit ∧ ¬ IsLowSurrogate unit ∧
      c = Char.ofNat unit) ∨
    ∃ high low behind, codeUnit.Takes text high ('\\' :: 'u' :: behind) ∧
      codeUnit.Takes behind low rest ∧ IsHighSurrogate high ∧ IsLowSurrogate low ∧
      c = Char.ofNat (0x10000 + (high - 0xd800) * 0x400 + (low - 0xdc00)) := by
  simp only [unicodeEscape, Reader.takes_bind, ← isHighSurrogate_iff, ← isLowSurrogate_iff]
  constructor
  · rintro ⟨unit, middle, hunit, h⟩
    split_ifs at h with hlow hhigh
    · cases h
    · simp only [Reader.takes_bind, takes_expect] at h
      obtain ⟨-, _, rfl, -, _, rfl, low, behind, hcode, h⟩ := h
      split_ifs at h with hpair
      · obtain ⟨hc, rfl⟩ := Reader.takes_pure.mp h
        exact .inr ⟨unit, low, _, hunit, hcode, hhigh, hpair, hc⟩
      · cases h
    · obtain ⟨rfl, rfl⟩ := Reader.takes_pure.mp h
      exact .inl ⟨unit, hunit, hhigh, hlow, rfl⟩
  · rintro (⟨unit, hunit, hhigh, hlow, hc⟩ | ⟨high, low, behind, hcode, hcode', hhigh, hlow, hc⟩)
    · exact ⟨unit, rest, hunit, by simp [hhigh, hlow, hc]⟩
    · have hhigh' : isLowSurrogate high = false := by
        simp only [isHighSurrogate, isLowSurrogate, Bool.and_eq_true, decide_eq_true_eq,
          Bool.and_eq_false_iff, decide_eq_false_iff_not] at hhigh ⊢
        omega
      refine ⟨high, _, hcode, ?_⟩
      rw [if_neg (by simp [hhigh']), if_pos hhigh]
      simp only [Reader.takes_bind, takes_expect]
      exact ⟨(), _, rfl, (), _, rfl, low, rest, hcode', by simp [hlow, pairValue, hc]⟩

theorem takes_escape {α : Type} {short : Char → α} {unicode : Reader α} {value : α} :
    (escape short unicode).Takes text value rest ↔
      (∃ c d, text = c :: rest ∧ (c, d) ∈ shortEscapes ∧ value = short d) ∨
      ∃ behind, text = 'u' :: behind ∧ unicode.Takes behind value rest := by
  simp only [← shortEscape?_eq_some_iff]
  unfold Reader.Takes escape
  cases text with
  | nil => simp [taken?]
  | cons c behind =>
    simp only
    split
    · next hc =>
      subst hc
      cases h : unicode behind <;> simp [taken?, h, Taken.weaken, shortEscape?]
    · next hc =>
      cases h : shortEscape? c with
      | none => simp [taken?, h, hc]
      | some d => simp [taken?, h, hc, and_comm, eq_comm]

/-! ## Pieces -/

variable {pieces : List Piece}

theorem not_pieces_nil : ¬ Pieces [] pieces rest :=
  nofun

theorem pieces_quote_iff : Pieces ('"' :: text) pieces rest ↔ pieces = [] ∧ rest = text := by
  constructor
  · intro h
    cases h with
    | quote => exact ⟨rfl, rfl⟩
    | plain hc => exact absurd rfl hc.1
  · rintro ⟨rfl, rfl⟩
    exact .quote _

theorem pieces_plain_iff {c : Char} (hquote : c ≠ '"') (hslash : c ≠ '\\') :
    Pieces (c :: text) pieces rest ↔
      isForbidden c = false ∧ ∃ later, pieces = .char c :: later ∧ Pieces text later rest := by
  constructor
  · intro h
    cases h with
    | quote => exact absurd rfl hquote
    | plain hc h => exact ⟨by simpa [isForbidden] using hc.2.2, _, rfl, h⟩
    | short | unit => exact absurd rfl hslash
  · rintro ⟨hc, later, rfl, h⟩
    exact .plain ⟨hquote, hslash, by simpa [isForbidden] using hc⟩ h

theorem pieces_slash_iff : Pieces ('\\' :: text) pieces rest ↔
    (∃ c d behind later, text = c :: behind ∧ (c, d) ∈ shortEscapes ∧
      pieces = .char d :: later ∧ Pieces behind later rest) ∨
    ∃ digits unit behind later, text = 'u' :: digits ∧ codeUnit.Takes digits unit behind ∧
      pieces = .unit unit :: later ∧ Pieces behind later rest := by
  simp only [takes_codeUnit]
  constructor
  · intro h
    cases h with
    | plain hc => exact absurd rfl hc.2.1
    | short hc h => exact .inl ⟨_, _, _, _, rfl, hc, rfl, h⟩
    | unit hunit h => exact .inr ⟨_, _, _, _, rfl, ⟨_, _, _, _, rfl, hunit⟩, rfl, h⟩
  · rintro (⟨_, _, _, _, rfl, hc, rfl, h⟩ | ⟨_, _, _, _, rfl, ⟨_, _, _, _, rfl, hunit⟩, rfl, h⟩)
    · exact .short hc h
    · exact .unit hunit h

/-! ## Literals that are decoded -/

/-- A literal that stands for characters, from behind its opening quote. -/
def Literal (text chars rest : List Char) : Prop :=
  ∃ pieces, Pieces text pieces rest ∧ Decodes pieces chars

variable {chars : List Char}

theorem not_literal_nil : ¬ Literal [] chars rest :=
  fun ⟨_, h, _⟩ => not_pieces_nil h

theorem literal_quote_iff : Literal ('"' :: text) chars rest ↔ rest = text ∧ chars = [] := by
  simp only [Literal, pieces_quote_iff]
  constructor
  · rintro ⟨_, ⟨rfl, rfl⟩, ⟨⟩⟩
    exact ⟨rfl, rfl⟩
  · rintro ⟨rfl, rfl⟩
    exact ⟨[], ⟨rfl, rfl⟩, .nil⟩

theorem literal_plain_iff {c : Char} (hquote : c ≠ '"') (hslash : c ≠ '\\') :
    Literal (c :: text) chars rest ↔
      isForbidden c = false ∧ ∃ later, chars = c :: later ∧ Literal text later rest := by
  simp only [Literal, pieces_plain_iff hquote hslash]
  constructor
  · rintro ⟨_, ⟨hc, pieces, rfl, hpieces⟩, ⟨⟩⟩
    exact ⟨hc, _, rfl, pieces, hpieces, ‹_›⟩
  · rintro ⟨hc, later, rfl, pieces, hpieces, hchars⟩
    exact ⟨_, ⟨hc, pieces, rfl, hpieces⟩, .char c hchars⟩

theorem literal_slash_iff : Literal ('\\' :: text) chars rest ↔
    ∃ c behind later, (escape id unicodeEscape).Takes text c behind ∧ chars = c :: later ∧
      Literal behind later rest := by
  simp only [Literal, pieces_slash_iff, takes_escape, takes_unicodeEscape]
  constructor
  · rintro ⟨_, ⟨c, d, behind, pieces, rfl, hc, rfl, hpieces⟩ |
      ⟨digits, unit, behind, pieces, rfl, hunit, rfl, hpieces⟩, hchars⟩
    · cases hchars with
      | char _ hchars => exact ⟨_, _, _, .inl ⟨_, _, rfl, hc, rfl⟩, rfl, _, hpieces, hchars⟩
    · cases hchars with
      | unit hhigh hlow hchars =>
        exact ⟨_, _, _, .inr ⟨_, rfl, .inl ⟨_, hunit, hhigh, hlow, rfl⟩⟩, rfl, _, hpieces, hchars⟩
      | pair hhigh hlow hchars =>
        cases hpieces with
        | unit hunit' hpieces =>
          exact ⟨_, _, _, .inr ⟨_, rfl, .inr ⟨_, _, _, hunit,
            takes_codeUnit.mpr ⟨_, _, _, _, rfl, hunit'⟩, hhigh, hlow, rfl⟩⟩, rfl,
            _, hpieces, hchars⟩
  · rintro ⟨c, behind, later, hescape, rfl, pieces, hpieces, hchars⟩
    rcases hescape with ⟨_, _, rfl, hc, rfl⟩ | ⟨digits, rfl, hunit⟩
    · exact ⟨_, .inl ⟨_, _, _, _, rfl, hc, rfl, hpieces⟩, .char c hchars⟩
    rcases hunit with ⟨unit, hunit, hhigh, hlow, hc⟩ |
      ⟨high, low, _, hunit, hunit', hhigh, hlow, hc⟩
    · exact ⟨_, .inr ⟨_, _, _, _, rfl, hunit, rfl, hpieces⟩, hc ▸ .unit hhigh hlow hchars⟩
    · obtain ⟨_, _, _, _, rfl, hdigits⟩ := takes_codeUnit.mp hunit'
      exact ⟨_, .inr ⟨_, _, _, _, rfl, hunit, rfl, .unit hdigits hpieces⟩,
        hc ▸ .pair hhigh hlow hchars⟩

theorem taken?_decodeFrom {bound : Nat} {done value : String} (h : text.length ≤ bound) :
    taken? (decodeFrom bound done text h) = some (value, rest) ↔
      ∃ chars, Literal text chars rest ∧ value.toList = done.toList ++ chars := by
  -- in order: nothing left, the quote, an escape (refused or read), a forbidden character, another
  fun_induction decodeFrom bound done text h with
  | case1 => simp [taken?, not_literal_nil]
  | case2 => simp [taken?, literal_quote_iff, String.toList_inj, eq_comm, and_comm]
  | case3 done behind fault hescape =>
    simp [taken?, literal_slash_iff, Reader.Takes, hescape]
  | case4 done behind taken hescape _ _ _ ih =>
    rw [ih]
    simp [literal_slash_iff, Reader.Takes, taken?, hescape]
  | case5 done c behind _ hquote hslash hforbidden =>
    simp [taken?, literal_plain_iff hquote hslash, hforbidden]
  | case6 done c behind _ hquote hslash hforbidden _ ih =>
    rw [ih]
    simp [literal_plain_iff hquote hslash, hforbidden]

/-- A literal is decoded to what its pieces stand for. -/
theorem takes_decode {value : String} : decode.Takes text value rest ↔
    ∃ pieces, Pieces text pieces rest ∧ Decodes pieces value.toList := by
  unfold Reader.Takes decode
  simp [taken?_decodeFrom, Literal]

/-! ## Literals that are skipped -/

theorem exists_pieces_slash_iff : (∃ pieces, Pieces ('\\' :: text) pieces rest) ↔
    ∃ behind, (escape (fun _ => ()) (do let _ ← codeUnit; return ())).Takes text () behind ∧
      ∃ pieces, Pieces behind pieces rest := by
  simp only [pieces_slash_iff, takes_escape, Reader.takes_bind, Reader.takes_pure,
    true_and, and_true]
  constructor
  · rintro ⟨_, ⟨c, d, behind, pieces, rfl, hc, -, hpieces⟩ |
      ⟨digits, unit, behind, pieces, rfl, hunit, -, hpieces⟩⟩
    · exact ⟨behind, .inl ⟨c, d, rfl, hc⟩, pieces, hpieces⟩
    · exact ⟨behind, .inr ⟨digits, rfl, unit, _, hunit, rfl⟩, pieces, hpieces⟩
  · rintro ⟨behind, ⟨c, d, rfl, hc⟩ | ⟨digits, rfl, unit, _, hunit, rfl⟩, pieces, hpieces⟩
    · exact ⟨_, .inl ⟨c, d, behind, pieces, rfl, hc, rfl, hpieces⟩⟩
    · exact ⟨_, .inr ⟨digits, unit, _, pieces, rfl, hunit, rfl, hpieces⟩⟩

theorem taken?_skipFrom {bound : Nat} {u : Unit} (h : text.length ≤ bound) :
    taken? (skipFrom bound text h) = some (u, rest) ↔ ∃ pieces, Pieces text pieces rest := by
  fun_induction skipFrom bound text h with
  | case1 => simp [taken?, not_pieces_nil]
  | case2 => simp [taken?, pieces_quote_iff, eq_comm]
  | case3 behind fault hescape =>
    simp [taken?, exists_pieces_slash_iff, Reader.Takes, hescape]
  | case4 behind taken hescape _ _ _ ih =>
    rw [ih]
    simp [exists_pieces_slash_iff, Reader.Takes, taken?, hescape]
  | case5 c behind _ hquote hslash hforbidden =>
    simp [taken?, pieces_plain_iff hquote hslash, hforbidden]
  | case6 c behind _ hquote hslash hforbidden _ ih =>
    rw [ih]
    simp [pieces_plain_iff hquote hslash, hforbidden]

/-- Any literal is skipped. -/
theorem takes_skip {u : Unit} :
    skip.Takes text u rest ↔ ∃ pieces, Pieces text pieces rest :=
  taken?_skipFrom (length_le_self text)

end CycleBench.Json.StringLiteral
