import CycleBench.Proofs.Json.Reading
import Mathlib.Tactic.IntervalCases

/-!
Writing values. Every string and every integer can be written, and so can a list or an object
whose parts can be, so the values that a document may have to hold have texts (`Writable`).
-/

namespace CycleBench.Json

/-- A value that has a text, whatever follows it. -/
def Writable (x : Value) : Prop :=
  ∀ rest, ∃ text, Spells text x rest

/-! ## Strings -/

/-- A character as it is, or by its code unit where it may not stand for itself. -/
def pieceOf (c : Char) : Piece :=
  if c = '"' ∨ c = '\\' ∨ c.toNat < 0x20 then .unit c.toNat else .char c

theorem toNat_lt_of_escaped {c : Char} (h : c = '"' ∨ c = '\\' ∨ c.toNat < 0x20) :
    c.toNat < 0x80 := by
  rcases h with rfl | rfl | h
  · decide
  · decide
  · omega

def piecesOf (s : String) : List Piece :=
  s.toList.map pieceOf

theorem decodes_map_pieceOf (chars : List Char) : Decodes (chars.map pieceOf) chars := by
  induction chars with
  | nil => exact .nil
  | cons c chars ih =>
    rw [List.map_cons, pieceOf]
    split
    · next hc =>
      have hlow := toNat_lt_of_escaped hc
      have hhigh : ¬ IsHighSurrogate c.toNat := fun h => absurd h.1 (by omega)
      have hlow' : ¬ IsLowSurrogate c.toNat := fun h => absurd h.1 (by omega)
      have hunit := Decodes.unit hhigh hlow' ih
      rwa [Char.ofNat_toNat] at hunit
    · exact .char c ih

theorem isHex_digitChar {n : Nat} (h : n < 16) : IsHex n.digitChar n :=
  ⟨h, .inl rfl⟩

theorem exists_pieces (chars rest : List Char) :
    ∃ text, Pieces text (chars.map pieceOf) rest := by
  induction chars with
  | nil => exact ⟨_, .quote rest⟩
  | cons c chars ih =>
    obtain ⟨text, htext⟩ := ih
    rw [List.map_cons, pieceOf]
    split
    · next hc =>
      have hlow := toNat_lt_of_escaped hc
      refine ⟨_, .unit ⟨0, 0, c.toNat / 16, c.toNat % 16, isHex_digitChar (by decide),
        isHex_digitChar (by decide), isHex_digitChar (by omega), isHex_digitChar (by omega), ?_⟩
        htext⟩
      omega
    · next hc =>
      simp only [not_or, Nat.not_lt] at hc
      exact ⟨_, .plain hc htext⟩

theorem writable_string (s : String) : Writable (.string (piecesOf s)) := by
  intro rest
  obtain ⟨text, htext⟩ := exists_pieces s.toList rest
  exact ⟨_, .string htext⟩

theorem isString_piecesOf (s : String) : IsString (.string (piecesOf s)) s :=
  ⟨_, rfl, decodes_map_pieceOf s.toList⟩

/-! ## Integers -/

theorem head?_toDigits_ne {n : Nat} (h : 0 < n) : (Nat.toDigits 10 n).head? ≠ some '0' := by
  induction n using Nat.strongRecOn with
  | ind n ih =>
    rcases Nat.lt_or_ge n 10 with hlt | hge
    · rw [Nat.toDigits_of_lt_base hlt]
      interval_cases n <;> decide
    · rw [Nat.toDigits_of_base_le (by decide) hge,
        List.head?_append_of_ne_nil _ Nat.toDigits_ne_nil]
      exact ih (n / 10) (by omega) (by omega)

theorem isWhole_toDigits (n : Nat) : IsWhole (Nat.toDigits 10 n) := by
  rcases Nat.eq_zero_or_pos n with rfl | hn
  · exact .inl rfl
  · exact .inr ⟨⟨Nat.toDigits_ne_nil, fun d => Nat.isDigit_of_mem_toDigits (by decide) (by decide)⟩,
      head?_toDigits_ne hn⟩

def integerValue (i : Int) : Value :=
  .number ⟨decide (i < 0), Nat.toDigits 10 i.natAbs, none, none⟩

theorem isInteger_integerValue (i : Int) : IsInteger (integerValue i) i := by
  refine ⟨_, _, rfl, ?_⟩
  simp only [Nat.ofDigitChars_ten_toDigits, decide_eq_true_eq]
  constructor
  · omega
  · split <;> omega

theorem writable_integer (i : Int) : Writable (integerValue i) := by
  intro rest
  have hsign : ((if i < 0 then ['-'] else []), decide (i < 0)) ∈
      [([], false), (['-'], true)] := by
    by_cases h : i < 0 <;> simp [h]
  exact ⟨_, .number (.mk hsign (isWhole_toDigits _) .none .none) rest⟩

/-! ## Lists and objects -/

theorem writable_null : Writable .null :=
  fun rest => ⟨_, .null rest⟩

theorem exists_items {xs : List Value} (h : ∀ x ∈ xs, Writable x) (rest : List Char) :
    ∃ text, Items text xs rest := by
  induction xs with
  | nil => exact ⟨_, .done (.refl _)⟩
  | cons x xs ih =>
    obtain ⟨hx, hxs⟩ := List.forall_mem_cons.mp h
    obtain ⟨later, hlater⟩ := ih hxs
    obtain ⟨text, htext⟩ := hx later
    exact ⟨_, .next (.refl _) (.refl _) htext hlater⟩

theorem writable_list {xs : List Value} (h : ∀ x ∈ xs, Writable x) : Writable (.list xs) := by
  intro rest
  cases xs with
  | nil => exact ⟨_, .emptyList (.refl _)⟩
  | cons x xs =>
    obtain ⟨hx, hxs⟩ := List.forall_mem_cons.mp h
    obtain ⟨later, hlater⟩ := exists_items hxs rest
    obtain ⟨text, htext⟩ := hx later
    exact ⟨_, .list (.refl _) htext hlater⟩

/-- An object with these members, in this order. -/
def objectOf (entries : List (String × Value)) : Value :=
  .object (entries.map fun entry => (piecesOf entry.1, entry.2))

theorem exists_key (key : String) (rest : List Char) : ∃ text, Key text (piecesOf key) rest := by
  obtain ⟨text, htext⟩ := exists_pieces key.toList (':' :: rest)
  exact ⟨_, text, _, .refl _, htext, .refl _⟩

theorem exists_members {entries : List (String × Value)} (h : ∀ entry ∈ entries, Writable entry.2)
    (rest : List Char) :
    ∃ text, Members text (entries.map fun entry => (piecesOf entry.1, entry.2)) rest := by
  induction entries with
  | nil => exact ⟨_, .done (.refl _)⟩
  | cons entry entries ih =>
    obtain ⟨hentry, hentries⟩ := List.forall_mem_cons.mp h
    obtain ⟨later, hlater⟩ := ih hentries
    obtain ⟨text, htext⟩ := hentry later
    obtain ⟨start, hkey⟩ := exists_key entry.1 text
    exact ⟨_, .next (.refl _) hkey (.refl _) htext hlater⟩

theorem writable_objectOf {entries : List (String × Value)}
    (h : ∀ entry ∈ entries, Writable entry.2) : Writable (objectOf entries) := by
  intro rest
  cases entries with
  | nil => exact ⟨_, .emptyObject (.refl _)⟩
  | cons entry entries =>
    obtain ⟨hentry, hentries⟩ := List.forall_mem_cons.mp h
    obtain ⟨later, hlater⟩ := exists_members hentries rest
    obtain ⟨text, htext⟩ := hentry later
    obtain ⟨start, hkey⟩ := exists_key entry.1 text
    exact ⟨_, .object hkey (.refl _) htext hlater⟩

theorem assigns_objectOf {names : List String} {entries : List (String × Value)}
    {values : List (Option Value)}
    (h : List.Forall₂ (fun name value => valuesOf entries name = value.toList) names values) :
    Assigns names (objectOf entries) values := by
  refine .object ?_ h
  rw [Decoded, List.forall₂_map_left_iff, List.forall₂_same]
  exact fun entry _ => ⟨decodes_map_pieceOf entry.1.toList, rfl⟩

/-- A value that can be written is the whole of some document. -/
theorem Writable.exists_document {x : Value} (h : Writable x) :
    ∃ text : String, IsDocument text.toList x := by
  obtain ⟨text, htext⟩ := h []
  refine ⟨String.ofList text, [], ⟨text, ?_, htext⟩, .refl []⟩
  rw [String.toList_ofList]
  exact .refl text

end CycleBench.Json
