import CycleBench.Json.Sequence
import CycleBench.Proofs.Json.Grammar
import Mathlib.Data.List.TakeWhile

/-!
What readers take. The bound on the rest and the reason of a fault are left aside (`taken?`), so
that readers compose like relations between a text, a value and a rest (`takes_bind`).

`Reader.Denotes reader Means` ties a reader to the grammar: it takes only values that are spelled
at the front of the text, behind blanks, and it takes each such value that means something,
unless the text goes on in a way that no value can be followed by (`Ends`).
-/

namespace CycleBench.Json

variable {α β : Type}

/-- What is taken, or nothing after a fault. -/
def taken? {bound : Nat} : Except Fault (Taken bound α) → Option (α × List Char)
  | .ok taken => some (taken.value, taken.rest)
  | .error _ => none

/-- The reader takes this value off the text and leaves this rest. -/
def Reader.Takes (reader : Reader α) (text : List Char) (value : α) (rest : List Char) : Prop :=
  taken? (reader text) = some (value, rest)

variable {text rest : List Char} {value : α}

theorem Reader.takes_of_ok {reader : Reader α} {taken : Taken text.length α}
    (h : reader text = .ok taken) : reader.Takes text taken.value taken.rest := by
  rw [Reader.Takes, h, taken?]

theorem Reader.Takes.exists_ok {reader : Reader α} (h : reader.Takes text value rest) :
    ∃ taken, reader text = .ok taken ∧ taken.value = value ∧ taken.rest = rest := by
  unfold Reader.Takes at h
  cases htaken : reader text with
  | error fault => simp [htaken, taken?] at h
  | ok taken => exact ⟨taken, rfl, by simpa [htaken, taken?] using h⟩

theorem Reader.Takes.unique {reader : Reader α} {value' : α} {rest' : List Char}
    (h : reader.Takes text value rest) (h' : reader.Takes text value' rest') :
    value = value' ∧ rest = rest' :=
  Prod.mk.inj (Option.some.inj (Eq.trans (Eq.symm h) h'))

/-! ## Blanks -/

theorem isBlank_iff {c : Char} : isBlank c = true ↔ c ∈ [' ', '\t', '\n', '\r'] := by
  simp only [isBlank, Bool.or_eq_true, decide_eq_true_eq, List.mem_cons, List.not_mem_nil,
    or_false]
  tauto

theorem blanks_skipBlanks (text : List Char) : Blanks text (skipBlanks text) := by
  refine ⟨text.takeWhile isBlank, fun c hc => isBlank_iff.mp (List.mem_takeWhile_imp hc), ?_⟩
  exact List.takeWhile_append_dropWhile.symm

theorem Blanks.refl (text : List Char) : Blanks text text :=
  ⟨[], nofun, rfl⟩

theorem Blanks.trans {middle : List Char} (h : Blanks text middle) (h' : Blanks middle rest) :
    Blanks text rest := by
  obtain ⟨blanks, hblanks, rfl⟩ := h
  obtain ⟨blanks', hblanks', rfl⟩ := h'
  refine ⟨blanks ++ blanks', fun c hc => ?_, (List.append_assoc ..).symm⟩
  exact (List.mem_append.mp hc).elim (hblanks c) (hblanks' c)

theorem skipBlanks_of_blanks (h : Blanks text rest) : skipBlanks text = skipBlanks rest := by
  obtain ⟨blanks, hblanks, rfl⟩ := h
  exact List.dropWhile_append_of_pos fun c hc => isBlank_iff.mpr (hblanks c hc)

theorem skipBlanks_cons {c : Char} (hc : isBlank c = false) (rest : List Char) :
    skipBlanks (c :: rest) = c :: rest :=
  List.dropWhile_cons_of_neg (by simp [hc])

theorem blanks_cons_iff {c : Char} (hc : isBlank c = false) :
    Blanks text (c :: rest) ↔ skipBlanks text = c :: rest :=
  ⟨fun h => (skipBlanks_of_blanks h).trans (skipBlanks_cons hc rest),
    fun h => h ▸ blanks_skipBlanks text⟩

theorem Blanks.unique {c c' : Char} {rest' : List Char} (h : Blanks text (c :: rest))
    (h' : Blanks text (c' :: rest')) (hc : isBlank c = false) (hc' : isBlank c' = false) :
    c = c' ∧ rest = rest' :=
  List.cons.inj (((blanks_cons_iff hc).mp h).symm.trans ((blanks_cons_iff hc').mp h'))

theorem blanks_nil_iff : Blanks text [] ↔ skipBlanks text = [] :=
  ⟨skipBlanks_of_blanks, fun h => h ▸ blanks_skipBlanks text⟩

theorem blanks_of_head? {c : Char} (h : (skipBlanks text).head? = some c) :
    ∃ behind, skipBlanks text = c :: behind ∧ Blanks text (c :: behind) := by
  obtain ⟨behind, hbehind⟩ := List.head?_eq_some_iff.mp h
  exact ⟨behind, hbehind, hbehind ▸ blanks_skipBlanks text⟩

/-! ## Steps of a reader -/

namespace Reader

variable {reader : Reader α} {next : α → Reader β} {result : β}

@[simp]
theorem takes_pure {other : α} :
    (Pure.pure value : Reader α).Takes text other rest ↔ other = value ∧ rest = text := by
  simp [Takes, taken?, Pure.pure, Reader.pure, eq_comm]

theorem takes_bind : (reader >>= next).Takes text result rest ↔
    ∃ value middle, reader.Takes text value middle ∧ (next value).Takes middle result rest := by
  unfold Takes
  simp only [Bind.bind, Reader.bind]
  constructor
  · intro h
    split at h
    · cases h
    · next first hfirst =>
      split at h
      · cases h
      · next second hsecond =>
        cases h
        exact ⟨first.value, first.rest, takes_of_ok hfirst, takes_of_ok hsecond⟩
  · rintro ⟨value, middle, hfirst, hsecond⟩
    obtain ⟨first, hok, rfl, rfl⟩ := Takes.exists_ok hfirst
    obtain ⟨second, hok', rfl, rfl⟩ := Takes.exists_ok hsecond
    simp [hok, hok', taken?, Taken.weaken]

@[simp]
theorem not_takes_failNext {reason : Reason} :
    ¬ (failNext reason : Reader α).Takes text value rest :=
  nofun

@[simp]
theorem takes_skip {u : Unit} : skip.Takes text u rest ↔ rest = text.tail := by
  simp [Takes, taken?, skip, eq_comm]

theorem takes_bind_peek {next : Option Char → Reader β} :
    (peek >>= next).Takes text result rest ↔
      (next (skipBlanks text).head?).Takes (skipBlanks text) result rest := by
  rw [takes_bind]
  simp [Takes, taken?, peek]

theorem takes_bind_skip {next : Unit → Reader β} :
    (skip >>= next).Takes text result rest ↔ (next ()).Takes text.tail result rest := by
  rw [takes_bind]
  exact ⟨fun ⟨_, _, h, hnext⟩ => takes_skip.mp h ▸ hnext,
    fun hnext => ⟨(), _, takes_skip.mpr rfl, hnext⟩⟩

theorem takes_letters {word : List Char} {u : Unit} :
    (letters word).Takes text u rest ↔ text = word ++ rest := by
  induction word generalizing text with
  | nil => simp [letters, Takes, taken?, Reader.pure]
  | cons c word ih =>
    cases text with
    | nil => simp [Takes, letters, taken?]
    | cons d text =>
      have hrest : (letters (c :: word)).Takes (d :: text) u rest ↔
          c = d ∧ (letters word).Takes text u rest := by
        unfold Takes
        simp only [letters]
        split
        · next hcd => cases letters word text <;> simp [taken?, Taken.weaken, hcd]
        · next hcd => simp [taken?, hcd]
      rw [hrest, ih, List.cons_append, List.cons.injEq, eq_comm (a := c)]

theorem takes_colon {u : Unit} : colon.Takes text u rest ↔ Blanks text (':' :: rest) := by
  rw [blanks_cons_iff (by decide), colon, takes_bind_peek]
  cases skipBlanks text with
  | nil => simp
  | cons c behind =>
    simp only [List.head?_cons]
    split <;> simp_all [eq_comm]

theorem takes_typed {expected : String} {isStart : Char → Bool} {reader : Char → Reader α} :
    (typed expected isStart reader).Takes text value rest ↔
      ∃ c behind, skipBlanks text = c :: behind ∧ isStart c = true ∧
        (reader c).Takes behind value rest := by
  unfold Takes typed
  split
  · next hs => simp [taken?, hs]
  · next c behind hs =>
    split
    · next hc =>
      cases h : reader c behind <;> simp [taken?, Taken.weaken, hs, hc, h]
    · next hc => simp [taken?, hs, hc]

end Reader

/-! ## Readers and the grammar -/

theorem Decodes.unique {pieces : List Piece} {chars chars' : List Char} (h : Decodes pieces chars)
    (h' : Decodes pieces chars') : chars = chars' := by
  induction h generalizing chars' with
  | nil =>
    cases h'
    rfl
  | char c _ ih =>
    cases h' with
    | char _ h' => rw [ih h']
  | unit hhigh hlow _ ih =>
    cases h' with
    | unit _ _ h' => rw [ih h']
    | pair hhigh' => exact absurd hhigh' hhigh
  | pair hhigh hlow _ ih =>
    cases h' with
    | unit hhigh' => exact absurd hhigh hhigh'
    | pair _ _ h' => rw [ih h']

/-- The characters that may follow a value. None of them begins one. -/
def endings : List Char :=
  [' ', '\t', '\n', '\r', ',', ']', '}']

/-- Where a value may end: a number could go on otherwise. -/
def Ends (text : List Char) : Prop :=
  ∀ c ∈ text.head?, c ∈ endings

theorem mem_endings_of_isBlank {c : Char} (h : isBlank c = true) : c ∈ endings :=
  List.mem_append_left [',', ']', '}'] (isBlank_iff.mp h)

theorem isBlank_of_not_mem_endings {c : Char} (h : c ∉ endings) : isBlank c = false :=
  Bool.eq_false_iff.mpr fun hblank => h (mem_endings_of_isBlank hblank)

theorem ends_of_blanks {c : Char} (h : Blanks text (c :: rest)) (hc : c ∈ endings) :
    Ends text := by
  obtain ⟨blanks, hblanks, rfl⟩ := h
  rintro d hd
  cases blanks with
  | nil => exact Option.some.inj hd ▸ hc
  | cons b blanks =>
    exact Option.some.inj hd ▸ mem_endings_of_isBlank (isBlank_iff.mpr (hblanks b (.head _)))

theorem ends_of_blanks_nil (h : Blanks text []) : Ends text := by
  obtain ⟨blanks, hblanks, rfl⟩ := h
  rw [List.append_nil]
  exact fun d hd => mem_endings_of_isBlank (isBlank_iff.mpr (hblanks d (List.mem_of_head? hd)))

theorem Items.ends {items : List Value} (h : Items text items rest) : Ends text := by
  cases h with
  | done hend => exact ends_of_blanks hend (by decide)
  | next hcomma => exact ends_of_blanks hcomma (by decide)

theorem Members.ends {members : List (List Piece × Value)} (h : Members text members rest) :
    Ends text := by
  cases h with
  | done hend => exact ends_of_blanks hend (by decide)
  | next hcomma => exact ends_of_blanks hcomma (by decide)

theorem not_mem_endings_of_isStart {c : Char} (h : Numeral.isStart c = true) : c ∉ endings := by
  intro hc
  simp only [endings, List.mem_cons, List.not_mem_nil, or_false] at hc
  rcases hc with rfl | rfl | rfl | rfl | rfl | rfl | rfl <;> cases h

theorem IsWhole.eq_cons {ds : List Char} (h : IsWhole ds) :
    ∃ d later, ds = d :: later ∧ d.isDigit = true := by
  obtain rfl | ⟨⟨hne, hdigits⟩, -⟩ := h
  · exact ⟨'0', [], rfl, rfl⟩
  · obtain ⟨d, later, rfl⟩ := List.exists_cons_of_ne_nil hne
    exact ⟨d, later, rfl, hdigits d (.head _)⟩

theorem SpellsNumeral.eq_cons {spelling : List Char} {numeral : Numeral}
    (h : SpellsNumeral spelling numeral) :
    ∃ c behind, spelling = c :: behind ∧ Numeral.isStart c = true := by
  obtain ⟨hsign, hwhole, -, -⟩ := h
  simp only [List.mem_cons, Prod.mk.injEq, List.not_mem_nil, or_false] at hsign
  rcases hsign with ⟨rfl, rfl⟩ | ⟨rfl, rfl⟩
  · obtain ⟨d, later, rfl, hd⟩ := hwhole.eq_cons
    exact ⟨d, _, rfl, by simp [Numeral.isStart, hd]⟩
  · exact ⟨'-', _, rfl, rfl⟩

/-- A numeral begins with a sign or a digit. -/
theorem SpellsNumeral.append_ne {spelling : List Char} {numeral : Numeral} {c : Char}
    (h : SpellsNumeral spelling numeral) (hc : Numeral.isStart c = false) :
    c :: text ≠ spelling ++ rest := by
  obtain ⟨d, behind, rfl, hd⟩ := h.eq_cons
  rintro ⟨⟩
  cases hc.symm.trans hd

theorem Spells.eq_cons {x : Value} (h : Spells text x rest) :
    ∃ c behind, text = c :: behind ∧ c ∉ endings := by
  cases h with
  | number h =>
    obtain ⟨c, behind, rfl, hc⟩ := h.eq_cons
    exact ⟨c, _, rfl, not_mem_endings_of_isStart hc⟩
  | _ => exact ⟨_, _, rfl, by decide⟩

theorem Spells.skipBlanks_eq {bare : List Char} {x : Value} (hx : Spells bare x rest)
    (hblanks : Blanks text bare) : skipBlanks text = bare := by
  obtain ⟨c, behind, rfl, hc⟩ := hx.eq_cons
  exact (blanks_cons_iff (isBlank_of_not_mem_endings hc)).mp hblanks

theorem padded_iff {x : Value} : Padded text x rest ↔ Spells (skipBlanks text) x rest :=
  ⟨fun ⟨_, hblanks, hx⟩ => hx.skipBlanks_eq hblanks ▸ hx,
    fun hx => ⟨_, blanks_skipBlanks text, hx⟩⟩

/-- The reader takes the values that `Means` gives a meaning, and no others. -/
structure Reader.Denotes (reader : Reader α) (Means : Value → α → Prop) : Prop where
  sound : ∀ {text value rest}, reader.Takes text value rest →
    ∃ x, Padded text x rest ∧ Means x value
  complete : ∀ {text x value rest}, Padded text x rest → Means x value → Ends rest →
    reader.Takes text value rest

theorem Reader.Denotes.congr {reader : Reader α} {Means Means' : Value → α → Prop}
    (h : reader.Denotes Means) (hmeans : ∀ x value, Means x value ↔ Means' x value) :
    reader.Denotes Means' := by
  obtain rfl : Means = Means' := funext₂ fun x value => propext (hmeans x value)
  exact h

theorem Reader.Denotes.map {reader : Reader α} {Means : Value → α → Prop}
    (h : reader.Denotes Means) (f : α → β) :
    (do return f (← reader) : Reader β).Denotes fun x result =>
      ∃ value, Means x value ∧ result = f value where
  sound htakes := by
    obtain ⟨value, _, htakes, hresult⟩ := Reader.takes_bind.mp htakes
    obtain ⟨rfl, rfl⟩ := Reader.takes_pure.mp hresult
    obtain ⟨x, hx, hvalue⟩ := h.sound htakes
    exact ⟨x, hx, value, hvalue, rfl⟩
  complete := by
    rintro text x _ rest hx ⟨value, hvalue, rfl⟩ hends
    exact Reader.takes_bind.mpr
      ⟨value, rest, h.complete hx hvalue hends, Reader.takes_pure.mpr ⟨rfl, rfl⟩⟩

theorem denotes_typed {expected : String} {isStart : Char → Bool} {reader : Char → Reader α}
    {Means : Value → α → Prop}
    (hsound : ∀ {c behind value rest}, isStart c = true → (reader c).Takes behind value rest →
      ∃ x, Spells (c :: behind) x rest ∧ Means x value)
    (hcomplete : ∀ {text x value rest}, Spells text x rest → Means x value → Ends rest →
      ∃ c behind, text = c :: behind ∧ isStart c = true ∧ (reader c).Takes behind value rest) :
    (typed expected isStart reader).Denotes Means where
  sound h := by
    obtain ⟨c, behind, hs, hc, h⟩ := Reader.takes_typed.mp h
    obtain ⟨x, hx, hvalue⟩ := hsound hc h
    exact ⟨x, padded_iff.mpr (hs ▸ hx), hvalue⟩
  complete hx hvalue hends :=
    Reader.takes_typed.mpr (hcomplete (padded_iff.mp hx) hvalue hends)

theorem parse_eq_ok_iff {reader : Reader α} {Means : Value → α → Prop} (h : reader.Denotes Means)
    {document : String} : parse reader document = .ok value ↔
      ∃ x, IsDocument document.toList x ∧ Means x value := by
  have hparse : parse reader document = .ok value ↔
      ∃ behind, reader.Takes document.toList value behind ∧ Blanks behind [] := by
    simp only [blanks_nil_iff]
    constructor
    · intro hok
      dsimp only [parse] at hok
      split at hok
      · cases hok
      · next taken hread =>
        split at hok
        · next hend =>
          cases hok
          exact ⟨taken.rest, Reader.takes_of_ok hread, hend⟩
        · cases hok
    · rintro ⟨_, htakes, hend⟩
      obtain ⟨taken, hread, rfl, rfl⟩ := htakes.exists_ok
      simp [parse, hread, hend]
  rw [hparse]
  constructor
  · rintro ⟨behind, htakes, hend⟩
    obtain ⟨x, hx, hvalue⟩ := h.sound htakes
    exact ⟨x, ⟨behind, hx, hend⟩, hvalue⟩
  · rintro ⟨x, ⟨behind, hx, hend⟩, hvalue⟩
    exact ⟨behind, h.complete hx hvalue (ends_of_blanks_nil hend), hend⟩

end CycleBench.Json
