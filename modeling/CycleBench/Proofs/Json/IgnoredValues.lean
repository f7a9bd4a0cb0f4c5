import CycleBench.Json.Ignored
import CycleBench.Proofs.Json.Numbers
import CycleBench.Proofs.Json.Strings

/-!
Ignored values. The reader keeps the open brackets in a list and takes any value, however deep
(`denotes_value`). What is still due once a value ends inside open brackets is `Resumes`: the
rest of the innermost bracket, then the rest of the next one, and so on.

Soundness follows the reader, and builds the derivation from the inside out; completeness follows
the derivation, and keeps what the reader does after a value as a premise (`Finishes`).
-/

namespace CycleBench.Json.Ignored

variable {text rest : List Char} {x : Value} {outer : List Bracket}

/-! ## Scalars -/

theorem sound_scalarFrom {c : Char} {u : Unit} (hc : isScalarStart c = true)
    (h : (scalarFrom c).Takes text u rest) : ∃ x, Spells (c :: text) x rest := by
  unfold scalarFrom at h
  split_ifs at h with hn ht hf hq
  · subst hn
    obtain rfl := Reader.takes_letters.mp h
    exact ⟨.null, .null rest⟩
  · subst ht
    obtain rfl := Reader.takes_letters.mp h
    exact ⟨.boolean true, .yes rest⟩
  · subst hf
    obtain rfl := Reader.takes_letters.mp h
    exact ⟨.boolean false, .no rest⟩
  · subst hq
    obtain ⟨pieces, hpieces⟩ := StringLiteral.takes_skip.mp h
    exact ⟨.string pieces, .string hpieces⟩
  · obtain ⟨numeral, _, hnumeral, hpure⟩ := Reader.takes_bind.mp h
    obtain ⟨-, rfl⟩ := Reader.takes_pure.mp hpure
    have hstart : Numeral.isStart c = true := by simpa [isScalarStart, hn, ht, hf, hq] using hc
    obtain ⟨spelling, hspelling, hnumeral⟩ := Numeral.sound_readFrom hstart hnumeral
    exact ⟨.number numeral, hspelling ▸ .number hnumeral _⟩

/-- The value is no list and no object. -/
def IsScalar : Value → Prop
  | .list _ | .object _ => False
  | _ => True

theorem complete_scalarFrom (hx : Spells text x rest) (hscalar : IsScalar x) (hends : Ends rest) :
    ∃ c behind, text = c :: behind ∧ isScalarStart c = true ∧
      (scalarFrom c).Takes behind () rest := by
  cases hx with
  | null => exact ⟨_, _, rfl, rfl, Reader.takes_letters.mpr rfl⟩
  | yes => exact ⟨_, _, rfl, rfl, Reader.takes_letters.mpr rfl⟩
  | no => exact ⟨_, _, rfl, rfl, Reader.takes_letters.mpr rfl⟩
  | string hpieces => exact ⟨_, _, rfl, rfl, StringLiteral.takes_skip.mpr ⟨_, hpieces⟩⟩
  | number h =>
    obtain ⟨c, behind, rfl, hc⟩ := h.eq_cons
    have hother : ∀ d, Numeral.isStart d = false → c ≠ d := by
      rintro d hd rfl
      simp [hc] at hd
    have hnumeral := Numeral.complete_readFrom .invalidNumber h
      (Numeral.stops_of_ends hends) rfl
    refine ⟨c, _, rfl, by simp [isScalarStart, hc], ?_⟩
    rw [scalarFrom, if_neg (hother 'n' rfl), if_neg (hother 't' rfl), if_neg (hother 'f' rfl),
      if_neg (hother '"' rfl)]
    exact Reader.takes_bind.mpr ⟨_, _, hnumeral, Reader.takes_pure.mpr ⟨rfl, rfl⟩⟩
  | _ => exact hscalar.elim

/-! ## Brackets -/

namespace Bracket

variable {bracket : Bracket}

/-- What stands before a value inside a bracket. -/
def Lead (text rest : List Char) : Bracket → Prop
  | list => rest = text
  | object => ∃ key, Key text key rest

theorem key_skipBlanks {key : List Piece} (h : Key text key rest) :
    ∃ quoted, skipBlanks text = '"' :: quoted ∧ Key (skipBlanks text) key rest := by
  obtain ⟨quoted, behind, hquoted, hpieces, hcolon⟩ := h
  have hs := (blanks_cons_iff rfl).mp hquoted
  exact ⟨quoted, hs, quoted, behind, hs ▸ Blanks.refl _, hpieces, hcolon⟩

/-- What stands behind a value inside a bracket, to where the bracket is closed. -/
def More (text rest : List Char) : Bracket → Prop
  | list => ∃ items, Items text items rest
  | object => ∃ members, Members text members rest

theorem takes_lead {u : Unit} : bracket.lead.Takes text u rest ↔ bracket.Lead text rest := by
  cases bracket with
  | list => exact Reader.takes_pure.trans (and_iff_right rfl)
  | object =>
    rw [lead, Reader.takes_bind_peek]
    constructor
    · intro h
      split at h
      · next hquote =>
        obtain ⟨quoted, hskip, hquoted⟩ := blanks_of_head? hquote
        rw [Reader.takes_bind_skip, hskip, List.tail_cons] at h
        obtain ⟨_, behind, hskipped, hcolon⟩ := Reader.takes_bind.mp h
        obtain ⟨key, hkey⟩ := StringLiteral.takes_skip.mp hskipped
        exact ⟨key, quoted, behind, hquoted, hkey, Reader.takes_colon.mp hcolon⟩
      · cases h
      · cases h
    · rintro ⟨key, quoted, behind, hquoted, hkey, hcolon⟩
      rw [(blanks_cons_iff rfl).mp hquoted]
      exact Reader.takes_bind_skip.mpr (Reader.takes_bind.mpr
        ⟨(), behind, StringLiteral.takes_skip.mpr ⟨key, hkey⟩, Reader.takes_colon.mpr hcolon⟩)

/-- A value inside a bracket, with what stands before it. -/
def Item (text : List Char) (x : Value) (rest : List Char) (bracket : Bracket) : Prop :=
  ∃ bare, bracket.Lead text bare ∧ Padded bare x rest

theorem more_iff : bracket.More text rest ↔ Blanks text (bracket.closing :: rest) ∨
    ∃ t₁ x t₂, Blanks text (',' :: t₁) ∧ bracket.Item t₁ x t₂ ∧ bracket.More t₂ rest := by
  cases bracket with
  | list =>
    constructor
    · rintro ⟨_, hend | ⟨hcomma, hblanks, hitem, hitems⟩⟩
      · exact .inl hend
      · exact .inr ⟨_, _, _, hcomma, ⟨_, rfl, _, hblanks, hitem⟩, _, hitems⟩
    · rintro (hend | ⟨t₁, x, t₂, hcomma, ⟨_, rfl, bare, hblanks, hitem⟩, items, hitems⟩)
      · exact ⟨_, .done hend⟩
      · exact ⟨_, .next hcomma hblanks hitem hitems⟩
  | object =>
    constructor
    · rintro ⟨_, hend | ⟨hcomma, hkey, hblanks, hitem, hmembers⟩⟩
      · exact .inl hend
      · exact .inr ⟨_, _, _, hcomma, ⟨_, ⟨_, hkey⟩, _, hblanks, hitem⟩, _, hmembers⟩
    · rintro (hend | ⟨t₁, x, t₂, hcomma, ⟨t, ⟨key, hkey⟩, bare, hblanks, hitem⟩, members, hmembers⟩)
      · exact ⟨_, .done hend⟩
      · exact ⟨_, .next hcomma hkey hblanks hitem hmembers⟩

def opening : Bracket → Char
  | list => '['
  | object => '{'

theorem spells_empty (h : Blanks text (bracket.closing :: rest)) :
    ∃ x, Spells (bracket.opening :: text) x rest := by
  cases bracket with
  | list => exact ⟨.list [], .emptyList h⟩
  | object => exact ⟨.object [], .emptyObject h⟩

theorem spells_item {middle : List Char} (hx : bracket.Item text x middle)
    (hmore : bracket.More middle rest) : ∃ y, Spells (bracket.opening :: text) y rest := by
  cases bracket with
  | list =>
    obtain ⟨_, rfl, bare, hblanks, hx⟩ := hx
    obtain ⟨items, hitems⟩ := hmore
    exact ⟨_, .list hblanks hx hitems⟩
  | object =>
    obtain ⟨_, ⟨key, hkey⟩, bare, hblanks, hx⟩ := hx
    obtain ⟨members, hmembers⟩ := hmore
    exact ⟨_, .object hkey hblanks hx hmembers⟩

theorem item_of_skipBlanks (h : bracket.Item (skipBlanks text) x rest) :
    bracket.Item text x rest := by
  have htext := blanks_skipBlanks text
  cases bracket with
  | list =>
    obtain ⟨_, rfl, bare, hblanks, hx⟩ := h
    exact ⟨_, rfl, bare, htext.trans hblanks, hx⟩
  | object =>
    obtain ⟨bare, ⟨key, quoted, behind, hquoted, hkey⟩, hx⟩ := h
    exact ⟨bare, ⟨key, quoted, behind, htext.trans hquoted, hkey⟩, hx⟩

end Bracket

/-! ## Closing brackets -/

variable {brackets : List Bracket} {later : List Char}

/-- The bound does not matter. -/
theorem taken?_closeFrom {m n : Nat} (hm : text.length ≤ m) (hn : text.length ≤ n) :
    taken? (closeFrom m outer text hm) = taken? (closeFrom n outer text hn) := by
  induction outer generalizing text with
  | nil => rfl
  | cons bracket outer ih =>
    unfold closeFrom
    split
    · rfl
    · split_ifs
      · exact ih _ _
      · split <;> rfl
      · rfl

theorem takes_close_nil : (close []).Takes text brackets later ↔ brackets = [] ∧ later = text := by
  simp [Reader.Takes, close, closeFrom, taken?, eq_comm]

theorem takes_close_cons {bracket : Bracket} :
    (close (bracket :: outer)).Takes text brackets later ↔ ∃ behind,
      (Blanks text (bracket.closing :: behind) ∧ (close outer).Takes behind brackets later) ∨
      (Blanks text (',' :: behind) ∧ bracket.Lead behind later ∧ brackets = bracket :: outer) := by
  have hclosing : isBlank bracket.closing = false := by cases bracket <;> rfl
  have hcomma : ',' ≠ bracket.closing := by cases bracket <;> decide
  simp only [blanks_cons_iff hclosing, blanks_cons_iff (c := ',') rfl]
  simp only [← Bracket.takes_lead (u := ())]
  unfold Reader.Takes
  simp only [close, closeFrom]
  split
  · next hs => simp [taken?, hs]
  · next c behind hs =>
    simp only [hs, List.cons.injEq]
    split_ifs with hc hc'
    · subst hc
      simp [hcomma.symm, taken?_closeFrom _ (length_le_self behind)]
    · subst hc'
      cases hlead : bracket.lead behind with
      | error fault => simp [hc, taken?, hlead]
      | ok taken => simp [hc, taken?, hlead, and_comm, eq_comm (a := bracket :: outer)]
    · simp [hc, hc', taken?]

theorem takes_opened_empty {bracket : Bracket} {behind : List Char}
    (h : Blanks text (bracket.closing :: behind)) :
    (opened bracket outer).Takes text brackets later ↔
      (close outer).Takes behind brackets later := by
  have hclosing : isBlank bracket.closing = false := by cases bracket <;> rfl
  rw [opened, Reader.takes_bind_peek, (blanks_cons_iff hclosing).mp h]
  simp [Reader.takes_bind_skip]

theorem takes_opened {bracket : Bracket} (h : ∀ behind, ¬ Blanks text (bracket.closing :: behind)) :
    (opened bracket outer).Takes text brackets later ↔
      skipBlanks text ≠ [] ∧ bracket.Lead (skipBlanks text) later ∧
        brackets = bracket :: outer := by
  rw [opened, Reader.takes_bind_peek]
  cases hs : skipBlanks text with
  | nil => simp
  | cons c behind =>
    have hc : c ≠ bracket.closing := by
      rintro rfl
      exact h behind (hs ▸ blanks_skipBlanks text)
    simp [hc, Reader.takes_bind, Bracket.takes_lead]

/-! ## Soundness -/

/-- What follows a value inside open brackets, to where the outermost one is closed. -/
def Resumes : List Bracket → List Char → List Char → Prop
  | [], text, rest => text = rest
  | bracket :: outer, text, rest => ∃ middle, bracket.More text middle ∧ Resumes outer middle rest

/-- What follows when the next value is due, or none is. -/
def Due : List Bracket → List Char → List Char → Prop
  | [], text, rest => text = rest
  | bracket :: outer, text, rest =>
    ∃ x behind, Padded text x behind ∧ Resumes (bracket :: outer) behind rest

theorem resumes_of_close (h : (close outer).Takes text brackets later)
    (hdue : Due brackets later rest) : Resumes outer text rest := by
  induction outer generalizing text with
  | nil =>
    obtain ⟨rfl, rfl⟩ := takes_close_nil.mp h
    exact hdue
  | cons bracket outer ih =>
    obtain ⟨behind, ⟨hend, h⟩ | ⟨hcomma, hlead, rfl⟩⟩ := takes_close_cons.mp h
    · exact ⟨behind, Bracket.more_iff.mpr (.inl hend), ih h⟩
    · obtain ⟨x, t, hx, middle, hmore, hresumes⟩ := hdue
      exact ⟨middle, Bracket.more_iff.mpr (.inr ⟨_, x, t, hcomma, ⟨_, hlead, hx⟩, hmore⟩), hresumes⟩

theorem sound_opened {bracket : Bracket} (h : (opened bracket outer).Takes text brackets later)
    (hdue : Due brackets later rest) :
    ∃ x behind, Spells (bracket.opening :: text) x behind ∧ Resumes outer behind rest := by
  by_cases hempty : ∃ behind, Blanks text (bracket.closing :: behind)
  · obtain ⟨behind, hempty⟩ := hempty
    obtain ⟨x, hx⟩ := bracket.spells_empty hempty
    exact ⟨x, behind, hx, resumes_of_close ((takes_opened_empty hempty).mp h) hdue⟩
  · obtain ⟨-, hlead, rfl⟩ := (takes_opened (not_exists.mp hempty)).mp h
    obtain ⟨x, t, hx, middle, hmore, hresumes⟩ := hdue
    obtain ⟨y, hy⟩ := Bracket.spells_item (Bracket.item_of_skipBlanks ⟨_, hlead, hx⟩) hmore
    exact ⟨y, middle, hy, hresumes⟩

theorem sound_advance {c : Char} (hc : (isScalarStart c || c = '[' || c = '{') = true)
    (h : (advance c outer).Takes text brackets later) (hdue : Due brackets later rest) :
    ∃ x behind, Spells (c :: text) x behind ∧ Resumes outer behind rest := by
  unfold advance at h
  split_ifs at h with hlist hobject
  · exact hlist ▸ sound_opened h hdue
  · exact hobject ▸ sound_opened h hdue
  · obtain ⟨_, behind, hscalar, h⟩ := Reader.takes_bind.mp h
    obtain ⟨x, hx⟩ := sound_scalarFrom (by simpa [hlist, hobject] using hc) hscalar
    exact ⟨x, behind, hx, resumes_of_close h hdue⟩

theorem sound_valuesFrom {bound : Nat} {h : text.length ≤ bound} {u : Unit}
    (htaken : taken? (valuesFrom bound outer text h) = some (u, rest)) :
    ∃ x behind, Padded text x behind ∧ Resumes outer behind rest := by
  fun_induction valuesFrom bound outer text h with
  | case1 => cases htaken
  | case2 => cases htaken
  -- the value ends, and no bracket is open
  | case3 outer text _ c behind hs _ hc taken hadvance _ hempty =>
    obtain ⟨-, rfl⟩ : () = u ∧ taken.rest = rest := by simpa [taken?] using htaken
    have htakes := Reader.takes_of_ok hadvance
    rw [List.isEmpty_iff.mp hempty] at htakes
    obtain ⟨x, later, hx, hresumes⟩ := sound_advance hc htakes rfl
    exact ⟨x, later, padded_iff.mpr (hs ▸ hx), hresumes⟩
  -- another value is due
  | case4 outer text _ c behind hs _ hc taken hadvance _ hopen ih =>
    have hdue : Due taken.value taken.rest rest := by
      have hdue := ih htaken
      cases hbrackets : taken.value with
      | nil => exact absurd (List.isEmpty_iff.mpr hbrackets) hopen
      | cons bracket brackets => rwa [hbrackets] at hdue
    obtain ⟨x, later, hx, hresumes⟩ := sound_advance hc (Reader.takes_of_ok hadvance) hdue
    exact ⟨x, later, padded_iff.mpr (hs ▸ hx), hresumes⟩
  | case5 => cases htaken

/-! ## Completeness -/

/-- The reader takes what follows when the next value is due, or none is. -/
def Reads (brackets : List Bracket) (text rest : List Char) : Prop :=
  ∀ bound (h : text.length ≤ bound),
    taken? (valuesFrom bound brackets text h) = some ((), rest)

/-- The reader takes what follows a value inside open brackets. -/
def Finishes (outer : List Bracket) (text rest : List Char) : Prop :=
  ∃ brackets later, (close outer).Takes text brackets later ∧
    (brackets = [] ∧ later = rest ∨ brackets ≠ [] ∧ Reads brackets later rest)

variable {behind : List Char} {bracket : Bracket}

theorem finishes_of_closing (h : Blanks text (bracket.closing :: behind))
    (hfinishes : Finishes outer behind rest) : Finishes (bracket :: outer) text rest := by
  obtain ⟨brackets, later, hclose, hgoes⟩ := hfinishes
  exact ⟨brackets, later, takes_close_cons.mpr ⟨behind, .inl ⟨h, hclose⟩⟩, hgoes⟩

theorem finishes_of_comma (h : Blanks text (',' :: behind)) (hlead : bracket.Lead behind later)
    (hreads : Reads (bracket :: outer) later rest) : Finishes (bracket :: outer) text rest :=
  ⟨_, later, takes_close_cons.mpr ⟨behind, .inr ⟨h, hlead, rfl⟩⟩, .inr ⟨nofun, hreads⟩⟩

theorem reads_of_advance {c : Char} (hs : skipBlanks text = c :: behind)
    (hc : (isScalarStart c || c = '[' || c = '{') = true)
    (h : (advance c outer).Takes behind brackets later)
    (hgoes : brackets = [] ∧ later = rest ∨ brackets ≠ [] ∧ Reads brackets later rest) :
    Reads outer text rest := by
  intro bound hbound
  obtain ⟨taken, hadvance, rfl, rfl⟩ := h.exists_ok
  unfold valuesFrom
  split
  · next hs' => cases hs.symm.trans hs'
  · next c' behind' hs' =>
    obtain ⟨rfl, rfl⟩ := List.cons.inj (hs.symm.trans hs')
    rw [if_pos hc]
    rcases hgoes with ⟨hnil, rfl⟩ | ⟨hne, hreads⟩
    · simp [hadvance, hnil, taken?]
    · simp only [hadvance, List.isEmpty_iff, hne, if_false]
      exact hreads _ _

theorem reads_scalar {bare : List Char} (hblanks : Blanks text bare) (hx : Spells bare x behind)
    (hscalar : IsScalar x) (hends : Ends behind) (hfinishes : Finishes outer behind rest) :
    Reads outer text rest := by
  obtain ⟨brackets, later, hclose, hgoes⟩ := hfinishes
  obtain ⟨c, t, rfl, hc, htakes⟩ := complete_scalarFrom hx hscalar hends
  have hlist : c ≠ '[' := by
    rintro rfl
    cases hc
  have hobject : c ≠ '{' := by
    rintro rfl
    cases hc
  refine reads_of_advance (hx.skipBlanks_eq hblanks) (by simp [hc]) ?_ hgoes
  rw [advance, if_neg hlist, if_neg hobject]
  exact Reader.takes_bind.mpr ⟨(), _, htakes, hclose⟩

theorem reads_of_opened {t : List Char} (hblanks : Blanks text (bracket.opening :: t))
    (h : (opened bracket outer).Takes t brackets later)
    (hgoes : brackets = [] ∧ later = rest ∨ brackets ≠ [] ∧ Reads brackets later rest) :
    Reads outer text rest := by
  cases bracket with
  | list => exact reads_of_advance ((blanks_cons_iff rfl).mp hblanks) rfl h hgoes
  | object => exact reads_of_advance ((blanks_cons_iff rfl).mp hblanks) rfl h hgoes

theorem reads_empty (bracket : Bracket) {t : List Char}
    (hblanks : Blanks text (bracket.opening :: t))
    (hend : Blanks t (bracket.closing :: behind)) (hfinishes : Finishes outer behind rest) :
    Reads outer text rest := by
  obtain ⟨brackets, later, hclose, hgoes⟩ := hfinishes
  exact reads_of_opened hblanks ((takes_opened_empty hend).mpr hclose) hgoes

theorem reads_first (bracket : Bracket) {t : List Char}
    (hblanks : Blanks text (bracket.opening :: t))
    (hlead : bracket.Lead (skipBlanks t) later) {c : Char} (hs : skipBlanks t = c :: behind)
    (hc : c ≠ bracket.closing) (hreads : Reads (bracket :: outer) later rest) :
    Reads outer text rest := by
  have hclosing : isBlank bracket.closing = false := by cases bracket <;> rfl
  refine reads_of_opened hblanks ((takes_opened fun behind' h => ?_).mpr ⟨by simp [hs], hlead, rfl⟩)
    (.inr ⟨nofun, hreads⟩)
  exact hc (List.cons.inj (hs.symm.trans ((blanks_cons_iff hclosing).mp h))).1

mutual

theorem reads_of_spells {text bare behind : List Char} {x : Value} {outer : List Bracket}
    (hx : Spells bare x behind) (hblanks : Blanks text bare) (hends : Ends behind)
    (h : Finishes outer behind rest) : Reads outer text rest := by
  cases hx with
  | null => exact reads_scalar hblanks (.null _) trivial hends h
  | yes => exact reads_scalar hblanks (.yes _) trivial hends h
  | no => exact reads_scalar hblanks (.no _) trivial hends h
  | string hpieces => exact reads_scalar hblanks (.string hpieces) trivial hends h
  | number hnumeral => exact reads_scalar hblanks (.number hnumeral _) trivial hends h
  | emptyList hend => exact reads_empty .list hblanks hend h
  | list hitem hx hitems =>
    obtain ⟨c, later, hcons, hc⟩ := hx.eq_cons
    have hs := hx.skipBlanks_eq hitem
    refine reads_first .list hblanks rfl (hs.trans hcons) (fun h => hc (h ▸ by decide)) ?_
    exact reads_of_spells hx (hs ▸ Blanks.refl _) hitems.ends (finishes_of_items hitems h)
  | emptyObject hend => exact reads_empty .object hblanks hend h
  | object hkey hitem hx hmembers =>
    obtain ⟨quoted, hs, hkey⟩ := Bracket.key_skipBlanks hkey
    refine reads_first .object hblanks ⟨_, hkey⟩ hs (by decide) ?_
    exact reads_of_spells hx hitem hmembers.ends (finishes_of_members hmembers h)

theorem finishes_of_items {text behind : List Char} {items : List Value} {outer : List Bracket}
    (hitems : Items text items behind) (h : Finishes outer behind rest) :
    Finishes (.list :: outer) text rest := by
  cases hitems with
  | done hend => exact finishes_of_closing hend h
  | next hcomma hblanks hx hitems =>
    have hreads := reads_of_spells hx hblanks hitems.ends (finishes_of_items hitems h)
    exact finishes_of_comma hcomma rfl hreads

theorem finishes_of_members {text behind : List Char} {members : List (List Piece × Value)}
    {outer : List Bracket} (hmembers : Members text members behind)
    (h : Finishes outer behind rest) : Finishes (.object :: outer) text rest := by
  cases hmembers with
  | done hend => exact finishes_of_closing hend h
  | next hcomma hkey hblanks hx hmembers =>
    have hreads := reads_of_spells hx hblanks hmembers.ends (finishes_of_members hmembers h)
    exact finishes_of_comma hcomma ⟨_, hkey⟩ hreads

end

/-- An ignored value is any value. -/
theorem denotes_value : value.Denotes fun _ _ => True := by
  constructor
  · intro text u rest h
    obtain ⟨x, behind, hx, rfl⟩ := sound_valuesFrom h
    exact ⟨x, hx, trivial⟩
  · rintro text x u rest hx - hends
    obtain ⟨bare, hblanks, hx⟩ := hx
    have hfinishes : Finishes [] rest rest :=
      ⟨[], rest, takes_close_nil.mpr ⟨rfl, rfl⟩, .inl ⟨rfl, rfl⟩⟩
    exact reads_of_spells hx hblanks hends hfinishes _ _

end CycleBench.Json.Ignored
