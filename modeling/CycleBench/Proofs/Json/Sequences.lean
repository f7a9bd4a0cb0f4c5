import CycleBench.Proofs.Json.Scalars

/-!
Sequences and optional values. A sequence is read from a list whose items mean something, each in
its place (`denotes_sequence`), and an optional value from `null` or from a value with a meaning
(`denotes_optional`).
-/

namespace CycleBench.Json

variable {α : Type} {item : Reader α} {Means : Value → α → Prop} {text rest : List Char}

/-! ## Sequences -/

theorem IsList.unique {x : Value} {values values' : List α}
    (hx : IsList Means x values) (hx' : IsList Means x values')
    (h : ∀ {x value value'}, Means x value → Means x value' → value = value') :
    values = values' := by
  obtain ⟨items, rfl, hitems⟩ := hx
  obtain ⟨items', hlist, hitems'⟩ := hx'
  obtain rfl := Value.list.inj hlist
  have hunique : Relator.RightUnique Means := fun _ _ _ => h
  exact List.right_unique_forall₂' hunique hitems hitems'

/-- The list is closed here, or a comma and another item follow. -/
theorem taken?_elementsFrom {bound : Nat} {done all : Array α} {h : text.length ≤ bound} :
    taken? (elementsFrom item bound done text h) = some (all, rest) ↔
      (Blanks text (']' :: rest) ∧ all = done) ∨
      ∃ behind value later, ∃ hless : later.length < text.length,
        Blanks text (',' :: behind) ∧ (∃ d t, skipBlanks behind = d :: t ∧ d ≠ ']') ∧
        item.Takes behind value later ∧
        taken? (elementsFrom item bound (done.push value) later
          (Nat.le_trans (Nat.le_of_lt hless) h)) = some (all, rest) := by
  simp only [blanks_cons_iff (c := ']') rfl, blanks_cons_iff (c := ',') rfl]
  rw [elementsFrom]
  split
  · next hs => simp [taken?, hs]
  · next c behind hs =>
    simp only [hs, List.cons.injEq]
    split_ifs with hclose hcomma
    · subst hclose
      simp [taken?, and_comm, eq_comm]
    · subst hcomma
      split
      · next hs' => simp [taken?, hs']
      · next d t hs' =>
        split_ifs with hend
        · simp [taken?, hs', hend]
        · cases hitem : item behind with
          | error fault => simp [taken?, Reader.Takes, hitem]
          | ok taken =>
            have hless : taken.rest.length < text.length :=
              Nat.lt_of_le_of_lt taken.bounded (lt_of_skipBlanks_eq_cons hs)
            simp [taken?, Reader.Takes, hitem, hs', hend, hless]
    · simp [taken?, hclose, hcomma]

theorem sound_elementsFrom (h : item.Denotes Means) {bound : Nat} {done all : Array α}
    {hbound : text.length ≤ bound}
    (htaken : taken? (elementsFrom item bound done text hbound) = some (all, rest)) :
    ∃ items values, Items text items rest ∧ List.Forall₂ Means items values ∧
      all.toList = done.toList ++ values := by
  -- each item that is taken leaves less of the text
  induction hlength : text.length using Nat.strongRecOn generalizing text done with
  | ind n ih =>
    rcases taken?_elementsFrom.mp htaken with ⟨hend, rfl⟩ |
      ⟨behind, value, later, hless, hcomma, -, hitem, hmore⟩
    · exact ⟨[], [], .done hend, .nil, (List.append_nil _).symm⟩
    · obtain ⟨x, ⟨bare, hbare, hx⟩, hvalue⟩ := h.sound hitem
      obtain ⟨items, values, hitems, hvalues, hall⟩ := ih later.length (hlength ▸ hless) hmore rfl
      exact ⟨x :: items, value :: values, .next hcomma hbare hx hitems, .cons hvalue hvalues,
        by simp [hall]⟩

theorem complete_elementsFrom (h : item.Denotes Means) {items : List Value} {values : List α}
    (hitems : Items text items rest) (hvalues : List.Forall₂ Means items values) {bound : Nat}
    {done : Array α} {hbound : text.length ≤ bound} :
    taken? (elementsFrom item bound done text hbound) = some (done ++ values.toArray, rest) := by
  induction items generalizing text values done with
  | nil =>
    cases hitems with
    | done hend =>
      obtain rfl := List.forall₂_nil_left_iff.mp hvalues
      exact taken?_elementsFrom.mpr (.inl ⟨hend, by simp⟩)
  | cons x items ih =>
    cases hitems with
    | @next _ behind _ later _ _ _ hcomma hbare hx hitems =>
      obtain ⟨value, values, hvalue, hlater, rfl⟩ := List.forall₂_cons_left_iff.mp hvalues
      have hpadded : Padded behind x later := ⟨_, hbare, hx⟩
      have hitem := h.complete hpadded hvalue hitems.ends
      obtain ⟨d, t, hs, hd⟩ := (padded_iff.mp hpadded).eq_cons
      have hopen : d ≠ ']' := fun heq => hd (heq ▸ by decide)
      have hless : later.length < text.length := by
        obtain ⟨taken, -, -, rfl⟩ := hitem.exists_ok
        exact Nat.lt_of_le_of_lt taken.bounded
          (lt_of_skipBlanks_eq_cons ((blanks_cons_iff rfl).mp hcomma))
      refine taken?_elementsFrom.mpr
        (.inr ⟨behind, value, later, hless, hcomma, ⟨d, t, hs, hopen⟩, hitem, ?_⟩)
      exact (ih hitems hlater).trans (by simp)

theorem denotes_sequence (h : item.Denotes Means) :
    (sequence item).Denotes fun x values => IsList Means x values.toList := by
  refine denotes_typed (fun {c text values rest} hc htakes => ?_)
    fun {text x values rest} hx hvalues _ => ?_
  · obtain rfl : c = '[' := by simpa using hc
    rw [Reader.takes_bind_peek] at htakes
    split at htakes
    · cases htakes
    · next hbracket =>
      obtain ⟨behind, hskip, hend⟩ := blanks_of_head? hbracket
      rw [hskip, Reader.takes_bind_skip] at htakes
      obtain ⟨rfl, rfl⟩ := Reader.takes_pure.mp htakes
      exact ⟨.list [], .emptyList hend, [], rfl, .nil⟩
    · obtain ⟨first, middle, hfirst, hmore⟩ := Reader.takes_bind.mp htakes
      obtain ⟨x, ⟨bare, hbare, hx⟩, hvalue⟩ := h.sound hfirst
      obtain ⟨items, later, hitems, hlater, hall⟩ := sound_elementsFrom h hmore
      have hblanks := (blanks_skipBlanks text).trans hbare
      exact ⟨.list (x :: items), .list hblanks hx hitems, x :: items, rfl,
        hall ▸ .cons hvalue hlater⟩
  · obtain ⟨items, rfl, hitems⟩ := hvalues
    cases hx with
    | emptyList hend =>
      obtain rfl : values = #[] := by simpa using List.forall₂_nil_left_iff.mp hitems
      refine ⟨'[', _, rfl, rfl, ?_⟩
      rw [Reader.takes_bind_peek, (blanks_cons_iff rfl).mp hend]
      exact Reader.takes_bind_skip.mpr (Reader.takes_pure.mpr ⟨rfl, rfl⟩)
    | @list behind _ _ _ x items hbare hx hmore =>
      obtain ⟨value, later, hvalue, hlater, hvalues⟩ := List.forall₂_cons_left_iff.mp hitems
      obtain ⟨d, t, hs, hd⟩ := (padded_iff.mp ⟨_, hbare, hx⟩).eq_cons
      have hclose : d ≠ ']' := fun heq => hd (heq ▸ by decide)
      have hfirst : item.Takes (skipBlanks behind) value _ :=
        h.complete ⟨_, hx.skipBlanks_eq hbare ▸ .refl _, hx⟩ hvalue hmore.ends
      refine ⟨'[', behind, rfl, rfl, ?_⟩
      have hvalues : #[value] ++ later.toArray = values :=
        Array.toList_inj.mp (by simp [hvalues])
      rw [Reader.takes_bind_peek]
      split
      · next hnone => simp [hs] at hnone
      · next hbracket => exact absurd (by simpa [hs] using hbracket) hclose
      · refine Reader.takes_bind.mpr ⟨value, _, hfirst, ?_⟩
        exact hvalues ▸ complete_elementsFrom h hmore hlater

/-! ## Optional values -/

theorem eq_null_of_spells {x : Value} (h : Spells ('n' :: text) x rest) : x = .null := by
  generalize htext : 'n' :: text = start at h
  cases h with
  | null => rfl
  | number h => exact absurd htext (h.append_ne rfl)
  | _ => cases htext

theorem IsOptional.unique {x : Value} {value value' : Option α}
    (h : ∀ {x value value'}, Means x value → Means x value' → value = value')
    (hnull : ∀ value, ¬ Means .null value) (hx : IsOptional Means x value)
    (hx' : IsOptional Means x value') : value = value' := by
  cases value with
  | none =>
    obtain rfl : x = .null := hx
    cases value' with
    | none => rfl
    | some found => exact absurd hx' (hnull found)
  | some found =>
    cases value' with
    | none =>
      obtain rfl : x = .null := hx'
      exact absurd hx (hnull found)
    | some found' => exact congrArg some (h hx hx')

theorem denotes_optional (h : item.Denotes Means) (hnull : ∀ value, ¬ Means .null value) :
    (optional item).Denotes (IsOptional Means) := by
  constructor
  · intro text value rest htakes
    rw [optional, Reader.takes_bind_peek] at htakes
    split at htakes
    · obtain ⟨_, _, hn, hpure⟩ := Reader.takes_bind.mp htakes
      obtain ⟨rfl, rfl⟩ := Reader.takes_pure.mp hpure
      obtain ⟨x, ⟨bare, hbare, hx⟩, rfl⟩ := denotes_null.sound hn
      exact ⟨.null, ⟨bare, (blanks_skipBlanks text).trans hbare, hx⟩, rfl⟩
    · obtain ⟨found, _, hfound, hpure⟩ := Reader.takes_bind.mp htakes
      obtain ⟨rfl, rfl⟩ := Reader.takes_pure.mp hpure
      obtain ⟨x, ⟨bare, hbare, hx⟩, hmeans⟩ := h.sound hfound
      exact ⟨x, ⟨bare, (blanks_skipBlanks text).trans hbare, hx⟩, hmeans⟩
  · intro text x value rest hx hvalue hends
    have hbare := padded_iff.mp hx
    have hpadded : Padded (skipBlanks text) x rest := ⟨_, .refl _, hbare⟩
    rw [optional, Reader.takes_bind_peek]
    cases value with
    | none =>
      obtain rfl : x = .null := hvalue
      have hn : null.Takes (skipBlanks text) () rest := denotes_null.complete hpadded rfl hends
      generalize hs : skipBlanks text = start at hbare hn
      cases hbare with
      | null => exact Reader.takes_bind.mpr ⟨(), rest, hn, Reader.takes_pure.mpr ⟨rfl, rfl⟩⟩
    | some found =>
      have hfound : item.Takes (skipBlanks text) found rest := h.complete hpadded hvalue hends
      split
      · next hn =>
        obtain ⟨behind, hs, -⟩ := blanks_of_head? hn
        obtain rfl := eq_null_of_spells (hs ▸ hbare)
        exact absurd hvalue (hnull found)
      · exact Reader.takes_bind.mpr ⟨found, rest, hfound, Reader.takes_pure.mpr ⟨rfl, rfl⟩⟩

end CycleBench.Json
