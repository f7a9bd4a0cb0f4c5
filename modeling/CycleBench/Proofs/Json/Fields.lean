import CycleBench.Proofs.Json.Records

/-!
What a value gives for the fields of a record. Where values are assigned to the fields, they are
the values that are given (`Assigns.gives_iff`), and no field is given twice
(`Assigns.not_repeats`).
-/

namespace CycleBench.Json

variable {names : List String} {name : String} {x : Value} {values : List (Option Value)}

open Classical in
/-- The values of a name, read off the members whose keys decode to it. -/
theorem valuesOf_of_decoded {members : List (List Piece × Value)} {entries : List (String × Value)}
    (h : Decoded members entries) (name : String) :
    valuesOf entries name =
      (members.filter fun member => Decodes member.1 name.toList).map (·.2) := by
  induction members generalizing entries with
  | nil =>
    obtain rfl := decoded_nil_iff.mp h
    rfl
  | cons member members ih =>
    obtain ⟨key, later, hkey, hlater, rfl⟩ := decoded_cons_iff.mp h
    by_cases hname : key = name
    · subst hname
      rw [valuesOf_cons_self, ih hlater, List.filter_cons_of_pos (by simpa using hkey),
        List.map_cons]
    · have hnot : ¬ Decodes member.1 name.toList := fun hdecodes =>
        hname (String.toList_inj.mp (hkey.unique hdecodes))
      rw [valuesOf_cons_of_ne later _ hname, ih hlater,
        List.filter_cons_of_neg (by simpa using hnot)]

theorem mem_valuesOf_iff {members : List (List Piece × Value)} {entries : List (String × Value)}
    (h : Decoded members entries) :
    x ∈ valuesOf entries name ↔ Gives names name (.object members) x := by
  simp only [valuesOf_of_decoded h, List.mem_map, List.mem_filter, decide_eq_true_eq]
  constructor
  · rintro ⟨⟨pieces, x⟩, ⟨hmember, hkey⟩, rfl⟩
    exact .member hmember hkey
  · intro hgives
    cases hgives with
    | member hmember hkey => exact ⟨_, ⟨hmember, hkey⟩, rfl⟩

theorem Assigns.not_isScalar (h : Assigns names x values) : ¬ Ignored.IsScalar x := by
  cases h <;> exact id

/-- Values are assigned to the fields for which they are given. -/
theorem Assigns.gives_iff (h : Assigns names x values) (hnodup : names.Nodup) :
    List.Forall₂ (fun name value => ∀ y, Gives names name x y ↔ value = some y) names values := by
  cases h with
  | object hkeys hvalues =>
    refine hvalues.imp fun name value hvalue y => ?_
    rw [← mem_valuesOf_iff hkeys, hvalue, Option.mem_toList]
  | @list items absent hlength =>
    refine List.forall₂_iff_get.mpr ⟨by simp [hlength], fun i hi hi' y => ?_⟩
    have hgiven : (items.map some ++ List.replicate absent none).get ⟨i, hi'⟩ = some y ↔
        items[i]? = some y := by
      rcases Nat.lt_or_ge i items.length with hlt | hge
      · simp [hlt]
      · rw [List.get_eq_getElem, List.getElem_append_right (by simpa using hge)]
        simp [List.getElem?_eq_none hge]
    rw [hgiven]
    constructor
    · intro hgives
      cases hgives with
      | @item _ _ j hplace hitem =>
        obtain ⟨hj, hname⟩ := List.getElem?_eq_some_iff.mp hplace
        obtain rfl : j = i := hnodup.getElem_inj_iff.mp hname
        exact hitem
    · exact fun hitem => .item (List.getElem?_eq_getElem hi) hitem

open Classical in
/-- No field has two values. -/
theorem Assigns.not_repeats (h : Assigns names x values) : ¬ Repeats names x := by
  rintro ⟨members, first, second, rfl, hpair, name, hname, hfirst, hsecond⟩
  cases h with
  | @object _ entries _ hkeys hvalues =>
    have hone : (valuesOf entries name).length ≤ 1 := by
      obtain ⟨i, hi, rfl⟩ := List.mem_iff_getElem.mp hname
      obtain ⟨hlength, hget⟩ := List.forall₂_iff_get.mp hvalues
      have hvalue := hget i hi (hlength ▸ hi)
      simp only [List.get_eq_getElem] at hvalue
      rw [hvalue]
      exact Option.length_toList_le
    have htwo : [first, second].Sublist
        (members.filter fun member => Decodes member.1 name.toList) := by
      simpa [hfirst, hsecond] using hpair.filter fun member => Decodes member.1 name.toList
    rw [valuesOf_of_decoded hkeys, List.length_map] at hone
    exact absurd (htwo.length_le.trans hone) (Nat.not_succ_le_self 1)

end CycleBench.Json
