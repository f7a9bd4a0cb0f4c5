import CycleBench.Proofs.Json.IgnoredValues

/-!
The grammar is unambiguous: a text spells at most one value (`IsDocument.unique`). A numeral could
end early, so where a value ends in one, the text must not go on like a number (`Ends`); inside
brackets it never does.
-/

namespace CycleBench.Json

variable {text rest rest' : List Char}

theorem Pieces.unique {pieces pieces' : List Piece} (h : Pieces text pieces rest)
    (h' : Pieces text pieces' rest') : pieces = pieces' ∧ rest = rest' := by
  induction h generalizing pieces' with
  | quote =>
    obtain ⟨rfl, rfl⟩ := StringLiteral.pieces_quote_iff.mp h'
    exact ⟨rfl, rfl⟩
  | plain hc _ ih =>
    obtain ⟨-, later, rfl, hlater⟩ := (StringLiteral.pieces_plain_iff hc.1 hc.2.1).mp h'
    obtain ⟨rfl, rfl⟩ := ih hlater
    exact ⟨rfl, rfl⟩
  | short hc _ ih =>
    have hshort := StringLiteral.shortEscape?_eq_some_iff.mpr hc
    cases h' with
    | plain hc' => exact absurd rfl hc'.2.1
    | short hc' h' =>
      obtain rfl := Option.some.inj
        (hshort.symm.trans (StringLiteral.shortEscape?_eq_some_iff.mpr hc'))
      obtain ⟨rfl, rfl⟩ := ih h'
      exact ⟨rfl, rfl⟩
    | unit => cases hshort
  | unit hunit _ ih =>
    cases h' with
    | plain hc' => exact absurd rfl hc'.2.1
    | short hc' => cases StringLiteral.shortEscape?_eq_some_iff.mpr hc'
    | unit hunit' h' =>
      obtain rfl := Option.some.inj ((StringLiteral.unitValue?_eq_some_iff.mpr hunit).symm.trans
        (StringLiteral.unitValue?_eq_some_iff.mpr hunit'))
      obtain ⟨rfl, rfl⟩ := ih h'
      exact ⟨rfl, rfl⟩

theorem Key.unique {key key' : List Piece} (h : Key text key rest) (h' : Key text key' rest') :
    key = key' ∧ rest = rest' := by
  obtain ⟨quoted, behind, hquoted, hpieces, hcolon⟩ := h
  obtain ⟨quoted', behind', hquoted', hpieces', hcolon'⟩ := h'
  obtain ⟨-, rfl⟩ := hquoted.unique hquoted' rfl rfl
  obtain ⟨rfl, rfl⟩ := hpieces.unique hpieces'
  exact ⟨rfl, (hcolon.unique hcolon' rfl rfl).2⟩

theorem Key.not_blanks {key : List Piece} (h : Key text key rest) :
    ¬ Blanks text ('}' :: rest') := by
  obtain ⟨quoted, behind, hquoted, -⟩ := h
  intro hend
  cases (hquoted.unique hend rfl rfl).1

/-! ## Scalars -/

/-- The reader of numerals takes as much as it can, so two spellings are one. -/
theorem SpellsNumeral.unique {spelling spelling' : List Char} {numeral numeral' : Numeral}
    (h : SpellsNumeral spelling numeral) (h' : SpellsNumeral spelling' numeral')
    (htext : spelling ++ rest = spelling' ++ rest') (hends : Ends rest) (hends' : Ends rest') :
    numeral = numeral' ∧ rest = rest' := by
  obtain ⟨c, behind, rfl, -⟩ := h.eq_cons
  have htakes := Numeral.complete_readFrom .endInValue h (Numeral.stops_of_ends hends) rfl
  exact htakes.unique
    (Numeral.complete_readFrom .endInValue h' (Numeral.stops_of_ends hends') htext)

-- Two texts and an equation, as a case split on one derivation would get stuck at the text of a
-- numeral in the other.
theorem Spells.unique_of_isScalar {text' : List Char} {x x' : Value} (hx : Spells text x rest)
    (hx' : Spells text' x' rest') (htext : text = text') (hscalar : Ignored.IsScalar x)
    (hends : Ends rest) (hends' : Ignored.IsScalar x' → Ends rest') : x = x' ∧ rest = rest' := by
  -- the first character leaves no other form
  cases hx with
  | null | yes | no =>
    cases hx' with
    | number h' => exact absurd htext (h'.append_ne rfl)
    | _ => cases htext <;> exact ⟨rfl, rfl⟩
  | number h =>
    cases hx' with
    | number h' =>
      obtain ⟨rfl, rfl⟩ := h.unique h' htext hends (hends' trivial)
      exact ⟨rfl, rfl⟩
    | _ => exact absurd htext.symm (h.append_ne rfl)
  | string h =>
    cases hx' with
    | string h' =>
      obtain ⟨rfl, rfl⟩ := h.unique ((List.cons.inj htext).2 ▸ h')
      exact ⟨rfl, rfl⟩
    | number h' => exact absurd htext (h'.append_ne rfl)
    | _ => cases htext
  | _ => exact hscalar.elim

/-! ## Values -/

/-- A value begins with no blank, so the blanks before it are all that there are. -/
theorem Spells.bare_unique {bare bare' : List Char} {x x' : Value} (hx : Spells bare x rest)
    (hx' : Spells bare' x' rest') (hbare : Blanks text bare) (hbare' : Blanks text bare') :
    bare = bare' :=
  (hx.skipBlanks_eq hbare).symm.trans (hx'.skipBlanks_eq hbare')

theorem Spells.not_blanks {bare : List Char} {x : Value} (hx : Spells bare x rest)
    (hbare : Blanks text bare) : ¬ Blanks text (']' :: rest') := by
  intro hend
  obtain ⟨c, behind, rfl, hc⟩ := hx.eq_cons
  obtain ⟨rfl, -⟩ := hbare.unique hend (isBlank_of_not_mem_endings hc) rfl
  exact hc (by decide)

mutual

/-- A text spells one value, and the value has one end. -/
theorem Spells.unique {text text' rest rest' : List Char} {x x' : Value} (hx : Spells text x rest)
    (hx' : Spells text' x' rest') (htext : text = text') (hends : Ignored.IsScalar x → Ends rest)
    (hends' : Ignored.IsScalar x' → Ends rest') : x = x' ∧ rest = rest' := by
  by_cases hscalar : Ignored.IsScalar x
  · exact hx.unique_of_isScalar hx' htext hscalar (hends hscalar) hends'
  cases hx with
  | null | yes | no | number | string => exact absurd trivial hscalar
  -- what follows the bracket tells an empty list from another
  | emptyList hend =>
    cases hx' with
    | emptyList hend' =>
      cases htext
      exact ⟨rfl, (hend.unique hend' rfl rfl).2⟩
    | list hbare' hx' =>
      cases htext
      exact absurd hend (hx'.not_blanks hbare')
    | number h' => exact absurd htext (h'.append_ne rfl)
    | _ => cases htext
  | list hbare hx hitems =>
    cases hx' with
    | emptyList hend' =>
      cases htext
      exact absurd hend' (hx.not_blanks hbare)
    | list hbare' hx' hitems' =>
      cases htext
      obtain ⟨rfl, rfl⟩ := Spells.unique hx hx' (hx.bare_unique hx' hbare hbare')
        (fun _ => hitems.ends) fun _ => hitems'.ends
      obtain ⟨rfl, rfl⟩ := Items.unique hitems hitems'
      exact ⟨rfl, rfl⟩
    | number h' => exact absurd htext (h'.append_ne rfl)
    | _ => cases htext
  | emptyObject hend =>
    cases hx' with
    | emptyObject hend' =>
      cases htext
      exact ⟨rfl, (hend.unique hend' rfl rfl).2⟩
    | object hkey' =>
      cases htext
      exact absurd hend hkey'.not_blanks
    | number h' => exact absurd htext (h'.append_ne rfl)
    | _ => cases htext
  | object hkey hbare hx hmembers =>
    cases hx' with
    | emptyObject hend' =>
      cases htext
      exact absurd hend' hkey.not_blanks
    | object hkey' hbare' hx' hmembers' =>
      cases htext
      obtain ⟨rfl, rfl⟩ := hkey.unique hkey'
      obtain ⟨rfl, rfl⟩ := Spells.unique hx hx' (hx.bare_unique hx' hbare hbare')
        (fun _ => hmembers.ends) fun _ => hmembers'.ends
      obtain ⟨rfl, rfl⟩ := Members.unique hmembers hmembers'
      exact ⟨rfl, rfl⟩
    | number h' => exact absurd htext (h'.append_ne rfl)
    | _ => cases htext

theorem Items.unique {text rest rest' : List Char} {items items' : List Value}
    (h : Items text items rest) (h' : Items text items' rest') :
    items = items' ∧ rest = rest' := by
  cases h with
  | done hend =>
    cases h' with
    | done hend' => exact ⟨rfl, (hend.unique hend' rfl rfl).2⟩
    | next hcomma' => cases (hend.unique hcomma' rfl rfl).1
  | next hcomma hbare hx hitems =>
    cases h' with
    | done hend' => cases (hcomma.unique hend' rfl rfl).1
    | next hcomma' hbare' hx' hitems' =>
      obtain ⟨-, rfl⟩ := hcomma.unique hcomma' rfl rfl
      obtain ⟨rfl, rfl⟩ := Spells.unique hx hx' (hx.bare_unique hx' hbare hbare')
        (fun _ => hitems.ends) fun _ => hitems'.ends
      obtain ⟨rfl, rfl⟩ := Items.unique hitems hitems'
      exact ⟨rfl, rfl⟩

theorem Members.unique {text rest rest' : List Char} {members members' : List (List Piece × Value)}
    (h : Members text members rest) (h' : Members text members' rest') :
    members = members' ∧ rest = rest' := by
  cases h with
  | done hend =>
    cases h' with
    | done hend' => exact ⟨rfl, (hend.unique hend' rfl rfl).2⟩
    | next hcomma' => cases (hend.unique hcomma' rfl rfl).1
  | next hcomma hkey hbare hx hmembers =>
    cases h' with
    | done hend' => cases (hcomma.unique hend' rfl rfl).1
    | next hcomma' hkey' hbare' hx' hmembers' =>
      obtain ⟨-, rfl⟩ := hcomma.unique hcomma' rfl rfl
      obtain ⟨rfl, rfl⟩ := hkey.unique hkey'
      obtain ⟨rfl, rfl⟩ := Spells.unique hx hx' (hx.bare_unique hx' hbare hbare')
        (fun _ => hmembers.ends) fun _ => hmembers'.ends
      obtain ⟨rfl, rfl⟩ := Members.unique hmembers hmembers'
      exact ⟨rfl, rfl⟩

end

/-! ## Documents -/

theorem Padded.unique {x x' : Value} (hx : Padded text x rest) (hx' : Padded text x' rest')
    (hends : Ignored.IsScalar x → Ends rest) (hends' : Ignored.IsScalar x' → Ends rest') :
    x = x' ∧ rest = rest' :=
  (padded_iff.mp hx).unique (padded_iff.mp hx') rfl hends hends'

theorem Ignored.isScalar_of_spells {x x' : Value} (hx : Spells text x rest)
    (hx' : Spells text x' rest') (hscalar : IsScalar x) : IsScalar x' := by
  -- a list or an object begins with its bracket, and a scalar does not
  have hstart : text.head? ≠ some '[' ∧ text.head? ≠ some '{' := by
    cases hx with
    | number h =>
      obtain ⟨c, behind, rfl, hc⟩ := h.eq_cons
      constructor <;> rintro ⟨⟩ <;> cases hc
    | emptyList | list | emptyObject | object => exact hscalar.elim
    | _ => exact ⟨nofun, nofun⟩
  cases hx' with
  | emptyList | list => exact absurd rfl hstart.1
  | emptyObject | object => exact absurd rfl hstart.2
  | _ => trivial

/-- A list or an object has only one end, whatever follows. -/
theorem Padded.rest_unique {x x' : Value} (hx : Padded text x rest) (hx' : Padded text x' rest')
    (hscalar : ¬ Ignored.IsScalar x) : rest = rest' := by
  have hscalar' : ¬ Ignored.IsScalar x' :=
    mt (Ignored.isScalar_of_spells (padded_iff.mp hx') (padded_iff.mp hx)) hscalar
  exact (hx.unique hx' (absurd · hscalar) (absurd · hscalar')).2

theorem IsDocument.unique {x x' : Value} (hx : IsDocument text x) (hx' : IsDocument text x') :
    x = x' := by
  obtain ⟨behind, hx, hbehind⟩ := hx
  obtain ⟨behind', hx', hbehind'⟩ := hx'
  exact (hx.unique hx' (fun _ => ends_of_blanks_nil hbehind)
    fun _ => ends_of_blanks_nil hbehind').1

end CycleBench.Json
