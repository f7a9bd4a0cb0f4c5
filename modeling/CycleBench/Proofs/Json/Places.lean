import CycleBench.Proofs.Json.Sequences
import CycleBench.Proofs.Json.Records

/-!
Places in a value. A place is a value with a hole, as a function of what stands in the hole. The
place of a field, or of an item in a list, lets one part of a record be told apart from the rest
(`Focus`): whatever is put there is what that part of the record becomes, and the rest stays. Places
within places are again of this kind (`Focus.trans`).
-/

namespace CycleBench.Json

/-- The place of a field: in an object behind its key, in a list by the number of items before. -/
inductive Place (names : List String) (name : String) : (Value → Value) → Prop
  | member {before after pieces} (hkey : Decodes pieces name.toList) :
    Place names name fun y => .object (before ++ (pieces, y) :: after)
  | item {before after} (hplace : names[before.length]? = some name) :
    Place names name fun y => .list (before ++ y :: after)

/-! ## Values that are assigned -/

theorem decoded_append_cons_iff {before after : List (List Piece × Value)} {pieces : List Piece}
    {y : Value} {entries : List (String × Value)} :
    Decoded (before ++ (pieces, y) :: after) entries ↔ ∃ former key later,
      Decoded before former ∧ Decodes pieces key.toList ∧ Decoded after later ∧
        entries = former ++ (key, y) :: later := by
  induction before generalizing entries with
  | nil =>
    rw [List.nil_append, decoded_cons_iff]
    constructor
    · rintro ⟨key, later, hkey, hlater, rfl⟩
      exact ⟨[], key, later, .nil, hkey, hlater, rfl⟩
    · rintro ⟨former, key, later, hformer, hkey, hlater, rfl⟩
      obtain rfl := decoded_nil_iff.mp hformer
      exact ⟨key, later, hkey, hlater, rfl⟩
  | cons member before ih =>
    rw [List.cons_append, decoded_cons_iff]
    simp only [ih]
    constructor
    · rintro ⟨first, _, hfirst, ⟨former, key, later, hformer, hkey, hlater, rfl⟩, rfl⟩
      exact ⟨(first, member.2) :: former, key, later, .cons ⟨hfirst, rfl⟩ hformer, hkey, hlater,
        rfl⟩
    · rintro ⟨_, key, later, hformer, hkey, hlater, rfl⟩
      obtain ⟨first, former, hfirst, hrest, rfl⟩ := decoded_cons_iff.mp hformer
      exact ⟨first, _, hfirst, ⟨former, key, later, hrest, hkey, hlater, rfl⟩, rfl⟩

/-- The values of a name among entries of which one is in the middle. -/
theorem valuesOf_append_cons (former later : List (String × Value)) (key name : String)
    (y : Value) : valuesOf (former ++ (key, y) :: later) name =
      valuesOf former name ++ (if key = name then [y] else []) ++ valuesOf later name := by
  by_cases h : key = name <;> simp [valuesOf, h]

variable {names : List String} {name : String} {around : Value → Value} {y : Value}
  {values : List (Option Value)}

/-- What stands in the place of a field is assigned to it, and no other field depends on it. -/
theorem Place.assigns (hplace : Place names name around) (hnodup : names.Nodup) {i : Nat}
    (hi : names[i]? = some name) (h : Assigns names (around y) values) :
    values[i]? = some (some y) ∧
      ∀ y', Assigns names (around y') (values.set i (some y')) := by
  obtain ⟨hlt, hname⟩ := List.getElem?_eq_some_iff.mp hi
  cases hplace with
  | @member before after pieces hkey =>
    cases h with
    | object hkeys hvalues =>
      obtain ⟨former, key, later, hformer, hkey', hlater, rfl⟩ := decoded_append_cons_iff.mp hkeys
      obtain rfl : key = name := String.toList_inj.mp (hkey'.unique hkey)
      obtain ⟨hlength, hget⟩ := List.forall₂_iff_get.mp hvalues
      simp only [List.get_eq_getElem, valuesOf_append_cons] at hget
      -- a field has one value at most, so this one is all there is
      have hown : valuesOf former key = [] ∧ values[i] = some y ∧ valuesOf later key = [] := by
        have hone := hget i hlt (hlength ▸ hlt)
        rw [hname, if_pos rfl] at hone
        cases hvalue : values[i] with
        | none => simp [hvalue] at hone
        | some z =>
          obtain ⟨hbefore, rfl, hafter⟩ :
              valuesOf former key = [] ∧ y = z ∧ valuesOf later key = [] := by
            simpa [hvalue, List.append_eq_singleton_iff] using hone
          exact ⟨hbefore, rfl, hafter⟩
      obtain ⟨hbefore, hvalue, hafter⟩ := hown
      refine ⟨by rw [List.getElem?_eq_getElem (hlength ▸ hlt), hvalue], fun y' => ?_⟩
      refine .object (decoded_append_cons_iff.mpr ⟨former, key, later, hformer, hkey, hlater, rfl⟩)
        (List.forall₂_iff_get.mpr ⟨by rw [List.length_set, hlength], fun j hj hj' => ?_⟩)
      simp only [List.get_eq_getElem, valuesOf_append_cons, List.getElem_set]
      by_cases hij : i = j
      · subst hij
        rw [if_pos rfl, hname, if_pos rfl, hbefore, hafter]
        rfl
      · have hne : key ≠ names[j] := fun heq => hij (hnodup.getElem_inj_iff.mp (hname.trans heq))
        have hother := hget j hj (hlength ▸ hj)
        rw [if_neg hne] at hother
        rw [if_neg hij, if_neg hne, hother]
  | @item before after hplace =>
    obtain ⟨hlt', hname'⟩ := List.getElem?_eq_some_iff.mp hplace
    obtain rfl : i = before.length := hnodup.getElem_inj_iff.mp (hname.trans hname'.symm)
    cases h with
    | @list _ absent hlength =>
      refine ⟨by simp, fun y' => ?_⟩
      have hset : ((before ++ y :: after).map some ++ List.replicate absent none).set before.length
          (some y') = (before ++ y' :: after).map some ++ List.replicate absent none := by
        simp
      rw [hset]
      exact .list (by simpa using hlength)

/-! ## Parts of a record -/

/-- A part of a record, and the place that it is written in: what is written there is what the part
is, and if something else is written there, that part of the record changes and no other. -/
def Focus {α β : Type} (around : Value → Value) (Given : Value → α → Prop)
    (Means : Value → β → Prop) (modify : (β → β) → α → α) : Prop :=
  ∀ y a, Given (around y) a → ∃ held, Means y held ∧
    ∀ y' f, Means y' (f held) → Given (around y') (modify f a)

namespace Focus

variable {α β γ : Type} {around inner : Value → Value} {Given : Value → α → Prop}
  {Means : Value → β → Prop} {Inner : Value → γ → Prop} {modify : (β → β) → α → α}
  {modify' : (γ → γ) → β → β}

theorem congr {Given' : Value → α → Prop} (h : Focus around Given Means modify)
    (hgiven : ∀ {x a}, Given x a ↔ Given' x a) : Focus around Given' Means modify := by
  have heq : Given = Given' := funext₂ fun _ _ => propext hgiven
  exact heq ▸ h

/-- A part of a part. -/
theorem trans (h : Focus around Given Means modify) (h' : Focus inner Means Inner modify') :
    Focus (fun y => around (inner y)) Given Inner fun f => modify (modify' f) := by
  intro y a ha
  obtain ⟨held, hheld, hreplace⟩ := h (inner y) a ha
  obtain ⟨held', hheld', hreplace'⟩ := h' y held hheld
  exact ⟨held', hheld', fun y' f hf => hreplace _ _ (hreplace' y' f hf)⟩

/-- What a record is with something else in a place. -/
theorem given_iff (h : Focus around Given Means modify)
    (hunique : ∀ {x a a'}, Given x a → Given x a' → a = a') {y y' : Value} {a a' : α}
    (ha : Given (around y) a) :
    Given (around y') a' ↔ ∃ held, Means y' held ∧ a' = modify (fun _ => held) a := by
  obtain ⟨_, -, hreplace⟩ := h y a ha
  constructor
  · intro ha'
    obtain ⟨held, hheld, -⟩ := h y' a' ha'
    exact ⟨held, hheld, hunique ha' (hreplace y' (fun _ => held) hheld)⟩
  · rintro ⟨held, hheld, rfl⟩
    exact hreplace y' (fun _ => held) hheld

end Focus

variable {α : Type}

/-- A field of a record. -/
theorem Slot.Lawful.focus {slots : List (Slot α)} {initial : α} (h : Slot.Lawful slots initial)
    {slot : Slot α} (hslot : slot ∈ slots) (hplace : Place (slots.map Slot.name) slot.name around) :
    Focus around (Slot.Given slots) slot.Means fun f a => slot.put (f (slot.get a)) a := by
  rintro y a ⟨values, hassigns, hholds⟩
  obtain ⟨i, hi, rfl⟩ := List.mem_iff_getElem.mp hslot
  have hname : (slots.map Slot.name)[i]? = some slots[i].name := by
    rw [List.getElem?_map, List.getElem?_eq_getElem hi]
    rfl
  obtain ⟨hvalue, hreplace⟩ := hplace.assigns h.nodup hname hassigns
  obtain ⟨hlength, hget⟩ := List.forall₂_iff_get.mp hholds
  obtain ⟨hi', hvalue⟩ := List.getElem?_eq_some_iff.mp hvalue
  have hheld := hget i hi hi'
  simp only [List.get_eq_getElem, hvalue] at hheld
  refine ⟨slots[i].get a, hheld, fun y' f hf => ⟨_, hreplace y', ?_⟩⟩
  refine List.forall₂_iff_get.mpr ⟨by rw [List.length_set, hlength], fun j hj hj' => ?_⟩
  simp only [List.get_eq_getElem, List.getElem_set]
  by_cases hij : i = j
  · subst hij
    rw [if_pos rfl, h.get_put _ hslot]
    exact hf
  · have hne : slots[j].name ≠ slots[i].name := fun heq => hij
      (h.nodup.of_map.getElem_inj_iff.mp (h.eq_of_name hslot (List.getElem_mem hj) heq.symm))
    rw [if_neg hij, h.get_put_of_ne _ hslot _ (List.getElem_mem hj) hne]
    exact hget j hj (hlength ▸ hj)

/-- An item of a list. -/
theorem focus_item {Means : Value → α → Prop} (before after : List Value) :
    Focus (fun y => .list (before ++ y :: after)) (IsList Means) Means fun f values =>
      values.modify before.length f := by
  rintro y values ⟨items, hitems, hall⟩
  obtain rfl := Value.list.inj hitems
  obtain ⟨hlength, hget⟩ := List.forall₂_iff_get.mp hall
  simp only [List.get_eq_getElem] at hget
  have hlt : before.length < (before ++ y :: after).length := by simp
  have hlt' : before.length < values.length := hlength ▸ hlt
  have hheld := hget before.length hlt hlt'
  refine ⟨values[before.length], by simpa using hheld, fun y' f hf => ?_⟩
  have hset : before ++ y' :: after = (before ++ y :: after).set before.length y' := by simp
  refine ⟨_, rfl, hset ▸ List.forall₂_iff_get.mpr ⟨by simpa using hlength, fun j hj hj' => ?_⟩⟩
  simp only [List.get_eq_getElem, List.getElem_set, List.getElem_modify]
  split
  · next h =>
    subst h
    exact hf
  · exact hget j (by simpa using hj) (by simpa using hj')

end CycleBench.Json
