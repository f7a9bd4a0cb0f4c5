/-!
Splitting a text at every occurrence of a character; empty pieces count.
-/

namespace CycleBench.Text

def splitChars (separator : Char) : List Char → List (List Char)
  | [] => [[]]
  | c :: rest =>
    if c = separator then [] :: splitChars separator rest
    else
      match splitChars separator rest with
      | [] => [[c]]
      | piece :: pieces => (c :: piece) :: pieces

def split (separator : Char) (text : String) : List String :=
  (splitChars separator text.toList).map String.ofList

variable {separator : Char}

theorem splitChars_ne_nil (text : List Char) : splitChars separator text ≠ [] := by
  cases text with
  | nil => exact List.cons_ne_nil _ _
  | cons c rest =>
    unfold splitChars
    split
    · exact List.cons_ne_nil _ _
    · split <;> exact List.cons_ne_nil _ _

theorem splitChars_append (before after : List Char) :
    splitChars separator (before ++ separator :: after) =
      splitChars separator before ++ splitChars separator after := by
  induction before with
  | nil => simp [splitChars]
  | cons c before ih =>
    simp only [List.cons_append, splitChars, ih]
    split
    · rfl
    · cases h : splitChars separator before with
      | nil => exact absurd h (splitChars_ne_nil before)
      | cons piece pieces => rfl

theorem splitChars_of_notMem {text : List Char} (h : separator ∉ text) :
    splitChars separator text = [text] := by
  induction text with
  | nil => rfl
  | cons c text ih =>
    have hc : separator ≠ c := List.ne_of_not_mem_cons h
    have htext : separator ∉ text := List.not_mem_of_not_mem_cons h
    simp only [splitChars, if_neg (Ne.symm hc), ih htext]

/-- Pieces without the separator are found again between separators. -/
theorem splitChars_intercalate {pieces : List (List Char)} (hne : pieces ≠ [])
    (h : ∀ piece ∈ pieces, separator ∉ piece) :
    splitChars separator ([separator].intercalate pieces) = pieces := by
  induction pieces with
  | nil => exact absurd rfl hne
  | cons piece rest ih =>
    obtain ⟨hpiece, hrest⟩ := List.forall_mem_cons.mp h
    cases rest with
    | nil => simpa using splitChars_of_notMem hpiece
    | cons next rest =>
      have hnext := ih (List.cons_ne_nil _ _) hrest
      rw [List.intercalate_cons_cons, List.append_assoc, List.singleton_append, splitChars_append,
        splitChars_of_notMem hpiece, hnext]
      rfl

theorem split_intercalate {pieces : List String} (hne : pieces ≠ [])
    (h : ∀ piece ∈ pieces, separator ∉ piece.toList) :
    split separator ((String.singleton separator).intercalate pieces) = pieces := by
  have hpieces : ∀ piece ∈ pieces.map String.toList, separator ∉ piece :=
    List.forall_mem_map.mpr h
  rw [split, String.toList_intercalate, String.toList_singleton,
    splitChars_intercalate (by simpa using hne) hpieces, List.map_map]
  simp [Function.comp_def, String.ofList_toList]

end CycleBench.Text
