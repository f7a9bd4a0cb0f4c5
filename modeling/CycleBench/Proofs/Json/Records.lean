import CycleBench.Json.Record
import CycleBench.Proofs.Json.IgnoredValues
import Mathlib.Data.List.Nodup

/-!
Records. A slot is a field with all that is known of it: what its reader denotes, its default, and
how it is got from a record and put into one. If the slots of a record are lawful, its reader
takes the objects and lists in which each slot is given at most once, or has a default, and the
record that is read holds what is given (`denotes_record`).
-/

namespace CycleBench.Json

theorem decoded_nil_iff {entries : List (String × Value)} : Decoded [] entries ↔ entries = [] :=
  List.forall₂_nil_left_iff

theorem decoded_cons_iff {pieces : List Piece} {x : Value} {members : List (List Piece × Value)}
    {entries : List (String × Value)} : Decoded ((pieces, x) :: members) entries ↔
      ∃ key later, Decodes pieces key.toList ∧ Decoded members later ∧
        entries = (key, x) :: later := by
  unfold Decoded
  rw [List.forall₂_cons_left_iff]
  constructor
  · rintro ⟨⟨key, x⟩, later, ⟨hkey, rfl⟩, hlater, rfl⟩
    exact ⟨key, later, hkey, hlater, rfl⟩
  · rintro ⟨key, later, hkey, hlater, rfl⟩
    exact ⟨(key, x), later, ⟨hkey, rfl⟩, hlater, rfl⟩

theorem decoded_unique {members : List (List Piece × Value)}
    {entries entries' : List (String × Value)} (h : Decoded members entries)
    (h' : Decoded members entries') : entries = entries' := by
  induction members generalizing entries entries' with
  | nil => rw [decoded_nil_iff.mp h, decoded_nil_iff.mp h']
  | cons member members ih =>
    obtain ⟨key, later, hkey, hlater, rfl⟩ := decoded_cons_iff.mp h
    obtain ⟨key', later', hkey', hlater', rfl⟩ := decoded_cons_iff.mp h'
    rw [String.toList_inj.mp (hkey.unique hkey'), ih hlater hlater']

theorem assigns_unique {names : List String} {x : Value} {values values' : List (Option Value)}
    (h : Assigns names x values) (h' : Assigns names x values') : values = values' := by
  cases h with
  | @object _ entries _ hentries hvalues =>
    cases h' with
    | object hentries' hvalues' =>
      obtain rfl := decoded_unique hentries hentries'
      have hunique : Relator.RightUnique fun (name : String) (value : Option Value) =>
          valuesOf entries name = value.toList := by
        intro name value value' hvalue hvalue'
        cases value <;> cases value' <;> simp_all
      exact List.right_unique_forall₂' hunique hvalues hvalues'
  | list hlength =>
    cases h' with
    | list hlength' => rw [Nat.add_left_cancel (hlength.trans hlength'.symm)]

theorem valuesOf_cons_self (entries : List (String × Value)) (name : String) (x : Value) :
    valuesOf ((name, x) :: entries) name = x :: valuesOf entries name := by
  simp [valuesOf]

theorem valuesOf_cons_of_ne (entries : List (String × Value)) {key name : String} (x : Value)
    (h : key ≠ name) : valuesOf ((key, x) :: entries) name = valuesOf entries name := by
  simp [valuesOf, h]

variable {α : Type}

structure Slot (α : Type) where
  {Held : Type}
  name : String
  reader : Reader Held
  Means : Value → Held → Prop
  /-- What the field holds when it is left out, unless it has to be given. -/
  default : Option Held
  get : α → Held
  put : Held → α → α

namespace Slot

def field (slot : Slot α) : Field α where
  name := slot.name
  required := slot.default.isNone
  read := do return slot.put (← slot.reader)

/-- The fields of a record are independent, and all there is to it. -/
structure Lawful (slots : List (Slot α)) (initial : α) : Prop where
  nodup : (slots.map Slot.name).Nodup
  denotes : ∀ slot ∈ slots, slot.reader.Denotes slot.Means
  unique : ∀ slot ∈ slots, ∀ {x held held'}, slot.Means x held → slot.Means x held' → held = held'
  get_put : ∀ slot ∈ slots, ∀ held a, slot.get (slot.put held a) = held
  get_put_of_ne : ∀ slot ∈ slots, ∀ other ∈ slots, other.name ≠ slot.name →
    ∀ held a, other.get (slot.put held a) = other.get a
  get_initial : ∀ slot ∈ slots, ∀ held, slot.default = some held → slot.get initial = held
  ext : ∀ {a a'}, (∀ slot ∈ slots, slot.get a = slot.get a') → a = a'

/-- The record with the given values. -/
def Given (slots : List (Slot α)) (x : Value) (a : α) : Prop :=
  ∃ values, Assigns (slots.map Slot.name) x values ∧
    List.Forall₂ (fun slot value => Holds slot.Means slot.default value (slot.get a)) slots values

/-- What a slot of `a'` holds when `a'` comes from `a` by putting in a value, or nothing. -/
def Changes (slot : Slot α) (a a' : α) : Option Value → Prop
  | none => slot.default ≠ none ∧ slot.get a' = slot.get a
  | some x => slot.Means x (slot.get a')

variable {slots : List (Slot α)} {initial a a' : α} {values : List (Option Value)}

theorem forall₂_imp_of_mem {β : Type} {R R' : Slot α → β → Prop} {us : List β}
    (h : ∀ slot ∈ slots, ∀ u, R slot u → R' slot u) (hall : List.Forall₂ R slots us) :
    List.Forall₂ R' slots us :=
  ((List.forall₂_and_left _ _).mpr ⟨fun _ hslot => hslot, hall⟩).imp
    fun slot u ⟨hslot, hu⟩ => h slot hslot u hu

theorem exists_of_forall₂ {β : Type} {R R' : Slot α → β → Prop} {us : List β}
    (h : List.Forall₂ R slots us) (h' : List.Forall₂ R' slots us) :
    ∀ slot ∈ slots, ∃ u, R slot u ∧ R' slot u := by
  induction h with
  | nil => nofun
  | cons hu _ ih =>
    obtain ⟨hu', h'⟩ := List.forall₂_cons.mp h'
    exact List.forall_mem_cons.mpr ⟨⟨_, hu, hu'⟩, ih h'⟩

theorem Lawful.changes_of_holds (h : Lawful slots initial)
    (ha : List.Forall₂ (fun slot value => Holds slot.Means slot.default value (slot.get a))
      slots values) :
    List.Forall₂ (fun slot value => slot.Changes initial a value) slots values := by
  refine forall₂_imp_of_mem (fun slot hslot value hvalue => ?_) ha
  cases value with
  | none =>
    have hdefault : slot.default = some (slot.get a) := hvalue
    exact ⟨by simp [hdefault], (h.get_initial slot hslot _ hdefault).symm⟩
  | some x => exact hvalue

theorem Lawful.holds_of_changes (h : Lawful slots initial)
    (ha : List.Forall₂ (fun slot value => slot.Changes initial a value) slots values) :
    List.Forall₂ (fun slot value => Holds slot.Means slot.default value (slot.get a))
      slots values := by
  refine forall₂_imp_of_mem (fun slot hslot value hvalue => ?_) ha
  cases value with
  | none =>
    obtain ⟨hne, hget⟩ := hvalue
    obtain ⟨held, hdefault⟩ := Option.ne_none_iff_exists'.mp hne
    have hheld : held = slot.get a := (h.get_initial slot hslot held hdefault).symm.trans hget.symm
    exact hdefault.trans (congrArg some hheld)
  | some x => exact hvalue

theorem Lawful.eq_of_changes (h : Lawful slots initial)
    (ha : List.Forall₂ (fun slot value => slot.Changes initial a value) slots values)
    (ha' : List.Forall₂ (fun slot value => slot.Changes initial a' value) slots values) :
    a = a' := by
  refine h.ext fun slot hslot => ?_
  obtain ⟨value, hvalue, hvalue'⟩ := exists_of_forall₂ ha ha' slot hslot
  cases value with
  | none => exact hvalue.2.trans hvalue'.2.symm
  | some x => exact h.unique slot hslot hvalue hvalue'

/-! ## Objects -/

/-- What a member does: it gives a field that is new, or the record does not know it. -/
inductive Step (slots : List (Slot α)) (given : List String) (a : α) (key : String) (x : Value) :
    List String → α → Prop
  | unknown (h : ∀ slot ∈ slots, slot.name ≠ key) : Step slots given a key x given a
  | known {slot held} (hslot : slot ∈ slots) (hname : slot.name = key) (hnew : key ∉ given)
    (hx : slot.Means x held) : Step slots given a key x (key :: given) (slot.put held a)

inductive Steps (slots : List (Slot α)) :
    List String → α → List (String × Value) → List String → α → Prop
  | nil (given a) : Steps slots given a [] given a
  | cons {given a key x given₁ a₁ entries given₂ a₂} (hstep : Step slots given a key x given₁ a₁)
    (hsteps : Steps slots given₁ a₁ entries given₂ a₂) :
    Steps slots given a ((key, x) :: entries) given₂ a₂

/-- The record whose fields are the slots. -/
def record (slots : List (Slot α)) (name : String) (initial : α) : Record α :=
  ⟨name, initial, slots.map field⟩

variable {name key : String} {given given' : List String} {text rest : List Char}

theorem field?_eq_none_iff :
    (record slots name initial).field? key = none ↔ ∀ slot ∈ slots, slot.name ≠ key := by
  simp only [record, Record.field?, List.find?_eq_none, List.forall_mem_map, decide_eq_true_eq]
  rfl

theorem Lawful.eq_of_name (h : Lawful slots initial) {slot other : Slot α} (hslot : slot ∈ slots)
    (hother : other ∈ slots) (hname : slot.name = other.name) : slot = other :=
  List.inj_on_of_nodup_map h.nodup hslot hother hname

theorem Lawful.field?_eq_some_iff (h : Lawful slots initial) {f : Field α} :
    (record slots name initial).field? key = some f ↔
      ∃ slot ∈ slots, slot.name = key ∧ f = slot.field := by
  have hfound : ∀ {f : Field α}, (record slots name initial).field? key = some f →
      ∃ slot ∈ slots, slot.name = key ∧ f = slot.field := by
    intro f hfield
    have hname := List.find?_some hfield
    obtain ⟨slot, hslot, rfl⟩ := List.mem_map.mp (List.mem_of_find?_eq_some hfield)
    exact ⟨slot, hslot, of_decide_eq_true hname, rfl⟩
  refine ⟨hfound, ?_⟩
  rintro ⟨slot, hslot, rfl, rfl⟩
  cases hfield : (record slots name initial).field? slot.name with
  | none => exact absurd rfl (field?_eq_none_iff.mp hfield slot hslot)
  | some f =>
    obtain ⟨other, hother, hname, rfl⟩ := hfound hfield
    rw [h.eq_of_name hother hslot hname]

theorem takes_read {slot : Slot α} {put : α → α} : slot.field.read.Takes text put rest ↔
    ∃ held, slot.reader.Takes text held rest ∧ put = slot.put held := by
  simp only [field, Reader.takes_bind, Reader.takes_pure]
  constructor
  · rintro ⟨held, _, h, rfl, rfl⟩
    exact ⟨held, h, rfl⟩
  · rintro ⟨held, h, rfl⟩
    exact ⟨held, _, h, rfl, rfl⟩

theorem takes_unless {β : Type} {c : Prop} [Decidable c] {fault : List Char → Fault}
    {reader : Reader β} {value : β} :
    Reader.Takes (if c then fun text => .error (fault text) else reader) text value rest ↔
      ¬ c ∧ reader.Takes text value rest := by
  by_cases hc : c <;> simp [hc, Reader.Takes, taken?]

/-- A member, from behind the opening quote of its key. -/
def Member (text : List Char) (pieces : List Piece) (x : Value) (rest : List Char) : Prop :=
  ∃ t₁ t₂, Pieces text pieces t₁ ∧ Blanks t₁ (':' :: t₂) ∧ Padded t₂ x rest

theorem sound_member (h : Lawful slots initial)
    (htakes : ((record slots name initial).member given a).Takes text (given', a') rest) :
    ∃ pieces key x, Member text pieces x rest ∧ Decodes pieces key.toList ∧
      Step slots given a key x given' a' := by
  rw [Record.member, Reader.takes_bind] at htakes
  obtain ⟨key, t₁, hdecode, htakes⟩ := htakes
  obtain ⟨pieces, hpieces, hkey⟩ := StringLiteral.takes_decode.mp hdecode
  split at htakes
  · next hfield =>
    obtain ⟨_, t₂, hcolon, htakes⟩ := Reader.takes_bind.mp htakes
    obtain ⟨_, t₃, hvalue, htakes⟩ := Reader.takes_bind.mp htakes
    obtain ⟨hpair, rfl⟩ := Reader.takes_pure.mp htakes
    obtain ⟨rfl, rfl⟩ := Prod.mk.inj hpair
    obtain ⟨x, hx, -⟩ := Ignored.denotes_value.sound hvalue
    exact ⟨pieces, key, x, ⟨t₁, t₂, hpieces, Reader.takes_colon.mp hcolon, hx⟩, hkey,
      .unknown (field?_eq_none_iff.mp hfield)⟩
  · next field hfield =>
    obtain ⟨slot, hslot, hname, rfl⟩ := h.field?_eq_some_iff.mp hfield
    obtain ⟨hnew, htakes⟩ := takes_unless.mp htakes
    obtain ⟨_, t₂, hcolon, htakes⟩ := Reader.takes_bind.mp htakes
    obtain ⟨put, t₃, hread, htakes⟩ := Reader.takes_bind.mp htakes
    obtain ⟨hpair, rfl⟩ := Reader.takes_pure.mp htakes
    obtain ⟨rfl, rfl⟩ := Prod.mk.inj hpair
    obtain ⟨held, hheld, rfl⟩ := takes_read.mp hread
    obtain ⟨x, hx, hheld⟩ := (h.denotes slot hslot).sound hheld
    exact ⟨pieces, key, x, ⟨t₁, t₂, hpieces, Reader.takes_colon.mp hcolon, hx⟩, hkey,
      .known hslot hname (by simpa using hnew) hheld⟩

theorem complete_member (h : Lawful slots initial) {pieces : List Piece} {x : Value}
    (hmember : Member text pieces x rest) (hkey : Decodes pieces key.toList)
    (hstep : Step slots given a key x given' a') (hends : Ends rest) :
    ((record slots name initial).member given a).Takes text (given', a') rest := by
  obtain ⟨t₁, t₂, hpieces, hcolon, hx⟩ := hmember
  rw [Record.member, Reader.takes_bind]
  refine ⟨key, t₁, StringLiteral.takes_decode.mpr ⟨pieces, hpieces, hkey⟩, ?_⟩
  have hcolon : Reader.colon.Takes t₁ () t₂ := Reader.takes_colon.mpr hcolon
  cases hstep with
  | unknown hunknown =>
    have hvalue : Ignored.value.Takes t₂ () rest :=
      Ignored.denotes_value.complete hx trivial hends
    rw [field?_eq_none_iff.mpr hunknown]
    exact Reader.takes_bind.mpr ⟨(), t₂, hcolon,
      Reader.takes_bind.mpr ⟨(), rest, hvalue, Reader.takes_pure.mpr ⟨rfl, rfl⟩⟩⟩
  | @known slot held hslot hname hnew hheld =>
    subst hname
    have hread := takes_read.mpr ⟨held, (h.denotes slot hslot).complete hx hheld hends, rfl⟩
    simp only [h.field?_eq_some_iff.mpr ⟨slot, hslot, rfl, rfl⟩]
    refine takes_unless.mpr ⟨by simpa using hnew, Reader.takes_bind.mpr ⟨(), t₂, hcolon, ?_⟩⟩
    exact Reader.takes_bind.mpr ⟨_, rest, hread, Reader.takes_pure.mpr ⟨rfl, rfl⟩⟩

theorem missing?_eq_none_iff : (record slots name initial).missing? given = none ↔
    ∀ slot ∈ slots, slot.default = none → slot.name ∈ given := by
  simp only [record, Record.missing?, List.find?_eq_none, List.forall_mem_map]
  simp [field]

theorem sound_membersFrom (h : Lawful slots initial) {bound : Nat} {hbound : text.length ≤ bound}
    (htaken : taken? ((record slots name initial).membersFrom bound given a text hbound) =
      some (a', rest)) :
    ∃ pieces x behind members entries given', Member text pieces x behind ∧
      Members behind members rest ∧ Decoded ((pieces, x) :: members) entries ∧
      Steps slots given a entries given' a' ∧
      (record slots name initial).missing? given' = none := by
  fun_induction Record.membersFrom (record slots name initial) bound given a text hbound with
  -- the object is closed behind the member, and no field is missing
  | case4 given a text _ taken hmember behind hmissing hs _ =>
    obtain ⟨rfl, rfl⟩ : taken.value.2 = a' ∧ behind = rest := by simpa [taken?] using htaken
    obtain ⟨pieces, key, x, hmember, hkey, hstep⟩ := sound_member h (Reader.takes_of_ok hmember)
    exact ⟨pieces, x, taken.rest, [], [(key, x)], taken.value.1, hmember,
      .done (hs ▸ blanks_skipBlanks _), .cons ⟨hkey, rfl⟩ .nil, .cons hstep (.nil _ _), hmissing⟩
  -- a comma and another member follow
  | case6 given a text _ taken hmember behind quoted hs _ _ hs' _ ih =>
    obtain ⟨pieces, key, x, hmember, hkey, hstep⟩ := sound_member h (Reader.takes_of_ok hmember)
    obtain ⟨pieces', x', later, members, entries, given',
      ⟨t₁, t₂, hpieces, hcolon, bare, hbare, hx⟩, hmembers, hentries, hsteps, hmissing⟩ := ih htaken
    have hnext : Members taken.rest ((pieces', x') :: members) rest :=
      .next (hs ▸ blanks_skipBlanks _) ⟨quoted, t₁, hs' ▸ blanks_skipBlanks _, hpieces, hcolon⟩
        hbare hx hmembers
    exact ⟨pieces, x, taken.rest, _, (key, x) :: entries, given', hmember, hnext,
      .cons ⟨hkey, rfl⟩ hentries, .cons hstep hsteps, hmissing⟩
  | _ => cases htaken

/-- Where the members that the reader takes end. -/
theorem taken?_membersFrom_last {taken : List String × α} {behind : List Char}
    (hmember : ((record slots name initial).member given a).Takes text taken behind)
    (hend : Blanks behind ('}' :: rest))
    (hmissing : (record slots name initial).missing? taken.1 = none) (bound : Nat)
    (hbound : text.length ≤ bound) :
    taken? ((record slots name initial).membersFrom bound given a text hbound) =
      some (taken.2, rest) := by
  have hs := (blanks_cons_iff rfl).mp hend
  obtain ⟨first, hfirst, rfl, rfl⟩ := hmember.exists_ok
  unfold Record.membersFrom
  split
  · next hm => cases hfirst.symm.trans hm
  · next first' hm =>
    obtain rfl : first = first' := Except.ok.inj (hfirst.symm.trans hm)
    split
    · next hs' => cases hs.symm.trans hs'
    · next c later hs' =>
      obtain ⟨rfl, rfl⟩ := List.cons.inj (hs.symm.trans hs')
      simp [hmissing, taken?]

theorem taken?_membersFrom_next {taken : List String × α} {behind later quoted : List Char}
    (hmember : ((record slots name initial).member given a).Takes text taken behind)
    (hcomma : Blanks behind (',' :: later)) (hquoted : Blanks later ('"' :: quoted))
    (hnext : ∀ bound (h : quoted.length ≤ bound),
      taken? ((record slots name initial).membersFrom bound taken.1 taken.2 quoted h) =
        some (a', rest)) (bound : Nat) (hbound : text.length ≤ bound) :
    taken? ((record slots name initial).membersFrom bound given a text hbound) =
      some (a', rest) := by
  have hs := (blanks_cons_iff rfl).mp hcomma
  have hs' := (blanks_cons_iff rfl).mp hquoted
  obtain ⟨first, hfirst, rfl, rfl⟩ := hmember.exists_ok
  unfold Record.membersFrom
  split
  · next hm => cases hfirst.symm.trans hm
  · next first' hm =>
    obtain rfl : first = first' := Except.ok.inj (hfirst.symm.trans hm)
    split
    · next hs'' => cases hs.symm.trans hs''
    · next c later' hs'' =>
      obtain ⟨rfl, rfl⟩ := List.cons.inj (hs.symm.trans hs'')
      rw [if_neg (by decide), if_pos rfl]
      split
      · next hs'' => cases hs'.symm.trans hs''
      · next d quoted' hs'' =>
        obtain ⟨rfl, rfl⟩ := List.cons.inj (hs'.symm.trans hs'')
        simp [hnext]

theorem complete_membersFrom (h : Lawful slots initial) {pieces : List Piece} {x : Value}
    {behind : List Char} {members : List (List Piece × Value)} {entries : List (String × Value)}
    (hmember : Member text pieces x behind) (hmembers : Members behind members rest)
    (hentries : Decoded ((pieces, x) :: members) entries)
    (hsteps : Steps slots given a entries given' a')
    (hmissing : (record slots name initial).missing? given' = none) (bound : Nat)
    (hbound : text.length ≤ bound) :
    taken? ((record slots name initial).membersFrom bound given a text hbound) =
      some (a', rest) := by
  induction members generalizing text pieces x behind entries given a bound with
  | nil =>
    obtain ⟨key, later, hkey, hlater, rfl⟩ := decoded_cons_iff.mp hentries
    obtain rfl := decoded_nil_iff.mp hlater
    have hends := hmembers.ends
    cases hmembers with
    | done hend =>
      cases hsteps with
      | cons hstep hsteps =>
        cases hsteps with
        | nil =>
          exact taken?_membersFrom_last (complete_member h hmember hkey hstep hends) hend hmissing
            bound hbound
  | cons member members ih =>
    obtain ⟨key, later, hkey, hlater, rfl⟩ := decoded_cons_iff.mp hentries
    have hends := hmembers.ends
    cases hmembers with
    | next hcomma hnext hblanks hx hmembers =>
      obtain ⟨quoted, t, hquoted, hpieces, hcolon⟩ := hnext
      cases hsteps with
      | cons hstep hsteps =>
        exact taken?_membersFrom_next (complete_member h hmember hkey hstep hends) hcomma hquoted
          (ih ⟨t, _, hpieces, hcolon, _, hblanks, hx⟩ hmembers hlater hsteps) bound hbound

theorem sound_object (h : Lawful slots initial)
    (htakes : (record slots name initial).object.Takes text a rest) :
    ∃ members entries given, Spells ('{' :: text) (.object members) rest ∧
      Decoded members entries ∧ Steps slots [] initial entries given a ∧
      (record slots name initial).missing? given = none := by
  rw [Record.object, Reader.takes_bind_peek] at htakes
  split at htakes
  · cases htakes
  · next c hhead =>
    obtain ⟨behind, hskip, hblanks⟩ := blanks_of_head? hhead
    rw [hskip] at htakes
    split_ifs at htakes with hbrace hquote
    · subst hbrace
      have htakes := Reader.takes_bind_skip.mp htakes
      split at htakes
      · cases htakes
      · next hmissing =>
        obtain ⟨rfl, rfl⟩ := Reader.takes_pure.mp htakes
        exact ⟨[], [], [], .emptyObject hblanks, .nil, .nil _ _, hmissing⟩
    · subst hquote
      have htakes := Reader.takes_bind_skip.mp htakes
      obtain ⟨pieces, x, later, members, entries, given, ⟨t₁, t₂, hpieces, hcolon, bare, hbare, hx⟩,
        hmembers, hentries, hsteps, hmissing⟩ := sound_membersFrom h htakes
      exact ⟨_, entries, given, .object ⟨behind, t₁, hblanks, hpieces, hcolon⟩ hbare hx hmembers,
        hentries, hsteps, hmissing⟩
    · cases htakes

theorem complete_object (h : Lawful slots initial) {members : List (List Piece × Value)}
    {entries : List (String × Value)} (hobject : Spells text (.object members) rest)
    (hentries : Decoded members entries) (hsteps : Steps slots [] initial entries given a)
    (hmissing : (record slots name initial).missing? given = none) :
    ∃ behind, text = '{' :: behind ∧ (record slots name initial).object.Takes behind a rest := by
  cases hobject with
  | @emptyObject behind _ hend =>
    obtain rfl := decoded_nil_iff.mp hentries
    cases hsteps with
    | nil =>
      refine ⟨behind, rfl, ?_⟩
      rw [Record.object, Reader.takes_bind_peek, (blanks_cons_iff rfl).mp hend]
      refine Reader.takes_bind_skip.mpr ?_
      rw [hmissing]
      exact Reader.takes_pure.mpr ⟨rfl, rfl⟩
  | @object behind _ _ _ _ _ _ _ hkey hbare hx hmembers =>
    obtain ⟨quoted, t₁, hquoted, hpieces, hcolon⟩ := hkey
    refine ⟨behind, rfl, ?_⟩
    rw [Record.object, Reader.takes_bind_peek, (blanks_cons_iff rfl).mp hquoted]
    refine Reader.takes_bind_skip.mpr ?_
    exact complete_membersFrom h ⟨t₁, _, hpieces, hcolon, _, hbare, hx⟩ hmembers hentries hsteps
      hmissing _ _

/-! ## What members give -/

/-- Members give a slot nothing, or one value if it has none yet. -/
theorem Steps.sound (h : Lawful slots initial) {entries : List (String × Value)}
    (hsteps : Steps slots given a entries given' a') {slot : Slot α} (hslot : slot ∈ slots) :
    (valuesOf entries slot.name = [] ∧ slot.get a' = slot.get a ∧
      (slot.name ∈ given' ↔ slot.name ∈ given)) ∨
    (slot.name ∉ given ∧ slot.name ∈ given' ∧
      ∃ x, valuesOf entries slot.name = [x] ∧ slot.Means x (slot.get a')) := by
  induction hsteps with
  | nil => exact .inl ⟨rfl, rfl, Iff.rfl⟩
  | @cons given a key x given₁ a₁ entries given₂ a₂ hstep _ ih =>
    cases hstep with
    | unknown hunknown =>
      rwa [valuesOf_cons_of_ne entries x (hunknown slot hslot).symm]
    | @known other held hother hname hnew hheld =>
      by_cases hkey : slot.name = key
      · obtain rfl := h.eq_of_name hslot hother (hkey.trans hname.symm)
        subst hkey
        rw [valuesOf_cons_self]
        obtain ⟨hnone, hget, hgiven⟩ | ⟨hnot, -⟩ := ih
        · have hheld : slot.Means x (slot.get a₂) := by
            rwa [hget, h.get_put slot hslot]
          exact .inr ⟨hnew, hgiven.mpr (.head _), x, by rw [hnone], hheld⟩
        · exact absurd (.head _) hnot
      · have hne : slot.name ≠ other.name := fun heq => hkey (heq.trans hname)
        rw [valuesOf_cons_of_ne entries x (Ne.symm hkey)]
        simpa [h.get_put_of_ne other hother slot hslot hne, hkey] using ih

/-- Members can be taken if they give no slot a second value, and only values with a meaning. -/
theorem exists_steps (slots : List (Slot α)) (given : List String) (a : α)
    (entries : List (String × Value))
    (h : ∀ slot ∈ slots, (slot.name ∈ given → valuesOf entries slot.name = []) ∧
      ∃ value : Option Value, valuesOf entries slot.name = value.toList ∧
        ∀ x, value = some x → ∃ held, slot.Means x held) :
    ∃ given' a', Steps slots given a entries given' a' := by
  induction entries generalizing given a with
  | nil => exact ⟨given, a, .nil _ _⟩
  | cons entry entries ih =>
    obtain ⟨key, x⟩ := entry
    by_cases hkey : ∃ slot ∈ slots, slot.name = key
    · obtain ⟨slot, hslot, rfl⟩ := hkey
      obtain ⟨hgiven, value, hvalues, hmeans⟩ := h slot hslot
      rw [valuesOf_cons_self] at hgiven hvalues
      obtain ⟨rfl, hnone⟩ : value = some x ∧ valuesOf entries slot.name = [] := by
        cases value with
        | none => cases hvalues
        | some y =>
          obtain ⟨rfl, hnone⟩ := List.cons.inj hvalues
          exact ⟨rfl, hnone⟩
      obtain ⟨held, hheld⟩ := hmeans x rfl
      obtain ⟨given', a', hsteps⟩ := ih (slot.name :: given) (slot.put held a) (by
        intro other hother
        by_cases hname : other.name = slot.name
        · rw [hname]
          exact ⟨fun _ => hnone, none, hnone, nofun⟩
        · rw [← valuesOf_cons_of_ne entries x (Ne.symm hname)]
          simpa [hname] using h other hother)
      have hstep : Step slots given a slot.name x (slot.name :: given) (slot.put held a) :=
        .known hslot rfl (fun hmem => absurd (hgiven hmem) nofun) hheld
      exact ⟨given', a', .cons hstep hsteps⟩
    · have hunknown : ∀ slot ∈ slots, slot.name ≠ key := fun slot hslot hname =>
        hkey ⟨slot, hslot, hname⟩
      obtain ⟨given', a', hsteps⟩ := ih given a fun slot hslot => by
        rw [← valuesOf_cons_of_ne entries x (hunknown slot hslot).symm]
        exact h slot hslot
      exact ⟨given', a', .cons (.unknown hunknown) hsteps⟩

theorem Steps.changes (h : Lawful slots initial) {entries : List (String × Value)}
    (hsteps : Steps slots [] initial entries given a)
    (hmissing : ∀ slot ∈ slots, slot.default = none → slot.name ∈ given) :
    ∃ values, List.Forall₂ (fun name value => valuesOf entries name = value.toList)
        (slots.map Slot.name) values ∧
      List.Forall₂ (fun slot value => slot.Changes initial a value) slots values := by
  have hslots : ∀ slot ∈ slots, ∃ value : Option Value,
      valuesOf entries slot.name = value.toList ∧ slot.Changes initial a value := by
    intro slot hslot
    obtain ⟨hnone, hget, hgiven⟩ | ⟨-, -, x, hx, hmeans⟩ := hsteps.sound h hslot
    · have hdefault : slot.default ≠ none := fun hdefault =>
        absurd (hgiven.mp (hmissing slot hslot hdefault)) nofun
      exact ⟨none, hnone, hdefault, hget⟩
    · exact ⟨some x, hx, hmeans⟩
  choose! value hvalue using hslots
  refine ⟨slots.map value, ?_, ?_⟩
  · rw [List.forall₂_map_left_iff, List.forall₂_map_right_iff, List.forall₂_same]
    exact fun slot hslot => (hvalue slot hslot).1
  · rw [List.forall₂_map_right_iff, List.forall₂_same]
    exact fun slot hslot => (hvalue slot hslot).2

theorem steps_of_changes (h : Lawful slots initial) {entries : List (String × Value)}
    (hvalues : List.Forall₂ (fun name value => valuesOf entries name = value.toList)
      (slots.map Slot.name) values)
    (ha : List.Forall₂ (fun slot value => slot.Changes initial a value) slots values) :
    ∃ given, Steps slots [] initial entries given a ∧
      ∀ slot ∈ slots, slot.default = none → slot.name ∈ given := by
  have hslots := exists_of_forall₂ (List.forall₂_map_left_iff.mp hvalues) ha
  obtain ⟨given, a', hsteps⟩ := exists_steps slots [] initial entries fun slot hslot => by
    obtain ⟨value, hvalue, hchanges⟩ := hslots slot hslot
    refine ⟨nofun, value, hvalue, ?_⟩
    rintro x rfl
    exact ⟨_, hchanges⟩
  have hsound : ∀ slot ∈ slots,
      slot.get a' = slot.get a ∧ (slot.default = none → slot.name ∈ given) := by
    intro slot hslot
    obtain ⟨value, hvalue, hchanges⟩ := hslots slot hslot
    obtain ⟨hnone, hget, -⟩ | ⟨-, hgiven, x, hx, hmeans⟩ := hsteps.sound h hslot
    · obtain rfl : value = none := by simpa using hvalue.symm.trans hnone
      exact ⟨hget.trans hchanges.2.symm, fun hdefault => absurd hdefault hchanges.1⟩
    · obtain rfl : value = some x := by simpa using hvalue.symm.trans hx
      exact ⟨h.unique slot hslot hmeans hchanges, fun _ => hgiven⟩
  obtain rfl : a' = a := h.ext fun slot hslot => (hsound slot hslot).1
  exact ⟨given, hsteps, fun slot hslot => (hsound slot hslot).2⟩

/-! ## Lists -/

theorem takes_listEnd {u : Unit} :
    Record.listEnd.Takes text u rest ↔ Blanks text (']' :: rest) := by
  rw [Record.listEnd, Reader.takes_bind_peek]
  constructor
  · intro h
    split at h
    · next hbracket =>
      obtain ⟨behind, hskip, hblanks⟩ := blanks_of_head? hbracket
      rw [hskip] at h
      obtain rfl := Reader.takes_skip.mp h
      exact hblanks
    · rw [Reader.takes_bind_skip, Reader.takes_bind_peek] at h
      split at h <;> cases h
    · cases h
    · cases h
  · intro h
    rw [(blanks_cons_iff rfl).mp h]
    exact Reader.takes_skip.mpr rfl

/-- What stands before an item of a list: nothing before the first one, a comma before another. -/
def Comma (first : Bool) (text rest : List Char) : Prop :=
  if first then text = rest else Blanks text (',' :: rest)

theorem sound_separator {first ended : Bool} (h : (Record.separator first).Takes text ended rest) :
    if ended then Blanks text (']' :: rest)
    else ∃ behind, Comma first text behind ∧ Blanks behind rest := by
  rw [Record.separator, Reader.takes_bind_peek] at h
  split at h
  · cases h
  · next hbracket =>
    obtain ⟨behind, hskip, hblanks⟩ := blanks_of_head? hbracket
    rw [hskip, Reader.takes_bind_skip] at h
    obtain ⟨rfl, rfl⟩ := Reader.takes_pure.mp h
    exact hblanks
  · next hcomma =>
    obtain ⟨behind, hskip, hblanks⟩ := blanks_of_head? hcomma
    split_ifs at h with hfirst
    · obtain ⟨rfl, rfl⟩ := Reader.takes_pure.mp h
      exact ⟨text, by simp [Comma, hfirst], blanks_skipBlanks text⟩
    · rw [hskip, Reader.takes_bind_skip, Reader.takes_bind_peek] at h
      split at h
      · cases h
      · cases h
      · obtain ⟨rfl, rfl⟩ := Reader.takes_pure.mp h
        exact ⟨behind, by simpa [Comma, hfirst] using hblanks, blanks_skipBlanks behind⟩
  · split_ifs at h with hfirst
    · obtain ⟨rfl, rfl⟩ := Reader.takes_pure.mp h
      exact ⟨text, by simp [Comma, hfirst], blanks_skipBlanks text⟩
    · cases h

theorem complete_separator_end {first : Bool} (h : Blanks text (']' :: rest)) :
    (Record.separator first).Takes text true rest := by
  rw [Record.separator, Reader.takes_bind_peek, (blanks_cons_iff rfl).mp h]
  exact Reader.takes_bind_skip.mpr (Reader.takes_pure.mpr ⟨rfl, rfl⟩)

theorem complete_separator_item {first : Bool} {behind : List Char} {x : Value}
    (hcomma : Comma first text behind) (hx : Padded behind x rest) :
    (Record.separator first).Takes text false (skipBlanks behind) := by
  obtain ⟨c, later, hskip, hc⟩ := (padded_iff.mp hx).eq_cons
  have hclose : c ≠ ']' := by
    rintro rfl
    exact hc (by decide)
  have hother : c ≠ ',' := by
    rintro rfl
    exact hc (by decide)
  rw [Record.separator, Reader.takes_bind_peek]
  cases first with
  | true =>
    obtain rfl : text = behind := hcomma
    rw [hskip]
    simp only [List.head?_cons, if_true]
    exact Reader.takes_pure.mpr ⟨rfl, rfl⟩
  | false =>
    rw [(blanks_cons_iff rfl).mp hcomma]
    simp only [List.head?_cons, Bool.false_eq_true, if_false]
    rw [Reader.takes_bind_skip, Reader.takes_bind_peek, List.tail_cons, hskip]
    simp only [List.head?_cons]
    exact Reader.takes_pure.mpr ⟨rfl, rfl⟩

/-- The items of a list that are left, from behind those before them. -/
inductive Left : Bool → List Char → List Value → List Char → Prop
  | done {first text rest} (hend : Blanks text (']' :: rest)) : Left first text [] rest
  | item {first text t₁ t₂ x items rest} (hcomma : Comma first text t₁) (hx : Padded t₁ x t₂)
    (hleft : Left false t₂ items rest) : Left first text (x :: items) rest

theorem left_false_iff {items : List Value} :
    Left false text items rest ↔ Items text items rest := by
  constructor
  · intro h
    generalize hfirst : false = first at h
    induction h with
    | done hend => exact .done hend
    | item hcomma hx _ ih =>
      subst hfirst
      obtain ⟨bare, hbare, hx⟩ := hx
      exact .next hcomma hbare hx (ih rfl)
  · intro h
    induction items generalizing text with
    | nil => cases h with | done hend => exact .done hend
    | cons x items ih =>
      cases h with
      | next hcomma hbare hx hitems => exact .item hcomma ⟨_, hbare, hx⟩ (ih hitems)

theorem spells_list_iff {items : List Value} :
    Spells text (.list items) rest ↔
      ∃ behind, text = '[' :: behind ∧ Left true behind items rest := by
  constructor
  · intro h
    cases h with
    | emptyList hend => exact ⟨_, rfl, .done hend⟩
    | list hbare hx hitems => exact ⟨_, rfl, .item rfl ⟨_, hbare, hx⟩ (left_false_iff.mpr hitems)⟩
  · rintro ⟨behind, rfl, h⟩
    cases h with
    | done hend => exact .emptyList hend
    | item hcomma hx hleft =>
      obtain rfl : behind = _ := hcomma
      obtain ⟨bare, hbare, hx⟩ := hx
      exact .list hbare hx (left_false_iff.mp hleft)

/-- What items put into a record, one slot after the other. -/
inductive Puts : List (Slot α) → α → List Value → α → Prop
  | done {slots : List (Slot α)} (a : α) (hdefault : ∀ slot ∈ slots, slot.default ≠ none) :
    Puts slots a [] a
  | item {slot : Slot α} {slots : List (Slot α)} {x : Value} {held : slot.Held} {items : List Value}
    {a a' : α} (hx : slot.Means x held) (hputs : Puts slots (slot.put held a) items a') :
    Puts (slot :: slots) a (x :: items) a'

theorem not_any_required_iff : ¬ (slots.map field).any (·.required) = true ↔
    ∀ slot ∈ slots, slot.default ≠ none := by
  simp [field]

theorem sound_elements {r : Record α} {count : Nat}
    (h : ∀ slot ∈ slots, slot.reader.Denotes slot.Means)
    (htakes : (r.elements count a (slots.map field)).Takes text a' rest) :
    ∃ items, Left (count = 0) text items rest ∧ Puts slots a items a' := by
  induction slots generalizing count a text with
  | nil =>
    obtain ⟨_, _, hend, hpure⟩ := Reader.takes_bind.mp htakes
    obtain ⟨rfl, rfl⟩ := Reader.takes_pure.mp hpure
    exact ⟨[], .done (takes_listEnd.mp hend), .done _ nofun⟩
  | cons slot slots ih =>
    rw [List.map_cons, Record.elements] at htakes
    obtain ⟨ended, t, hseparator, htakes⟩ := Reader.takes_bind.mp htakes
    have hseparator := sound_separator hseparator
    split_ifs at htakes with hended hrequired
    · cases htakes
    · obtain ⟨rfl, rfl⟩ := Reader.takes_pure.mp htakes
      rw [if_pos hended] at hseparator
      exact ⟨[], .done hseparator, .done _ (not_any_required_iff.mp hrequired)⟩
    · rw [if_neg hended] at hseparator
      obtain ⟨behind, hcomma, hblanks⟩ := hseparator
      obtain ⟨put, t', hread, htakes⟩ := Reader.takes_bind.mp htakes
      obtain ⟨held, hslot, rfl⟩ := takes_read.mp hread
      obtain ⟨x, ⟨bare, hbare, hx⟩, hheld⟩ := (h slot (.head _)).sound hslot
      obtain ⟨items, hleft, hputs⟩ := ih (List.forall_mem_cons.mp h).2 htakes
      exact ⟨x :: items, .item hcomma ⟨bare, hblanks.trans hbare, hx⟩ hleft, .item hheld hputs⟩

theorem Left.ends {items : List Value} (h : Left false text items rest) : Ends text := by
  cases h with
  | done hend => exact ends_of_blanks hend (by decide)
  | item hcomma => exact ends_of_blanks hcomma (by decide)

theorem complete_elements {r : Record α} {count : Nat} {items : List Value}
    (h : ∀ slot ∈ slots, slot.reader.Denotes slot.Means)
    (hleft : Left (count = 0) text items rest) (hputs : Puts slots a items a') :
    (r.elements count a (slots.map field)).Takes text a' rest := by
  induction hputs generalizing count text with
  | @done slots a hdefault =>
    cases hleft with
    | done hend =>
      cases slots with
      | nil =>
        exact Reader.takes_bind.mpr
          ⟨(), rest, takes_listEnd.mpr hend, Reader.takes_pure.mpr ⟨rfl, rfl⟩⟩
      | cons slot slots =>
        rw [List.map_cons, Record.elements]
        refine Reader.takes_bind.mpr ⟨true, rest, complete_separator_end hend, ?_⟩
        rw [if_pos rfl, ← List.map_cons, if_neg (not_any_required_iff.mpr hdefault)]
        exact Reader.takes_pure.mpr ⟨rfl, rfl⟩
  | item hheld _ ih =>
    cases hleft with
    | item hcomma hx hleft =>
      rw [List.map_cons, Record.elements]
      refine Reader.takes_bind.mpr ⟨false, _, complete_separator_item hcomma hx, ?_⟩
      have hslot := (h _ (.head _)).complete ⟨_, .refl _, padded_iff.mp hx⟩ hheld hleft.ends
      refine Reader.takes_bind.mpr ⟨_, _, takes_read.mpr ⟨_, hslot, rfl⟩, ?_⟩
      exact ih (List.forall_mem_cons.mp h).2 hleft

/-! ## What items give -/

/-- Items change the slots at their places, and no others. -/
theorem Puts.sound (h : Lawful slots initial) {part : List (Slot α)} {items : List Value}
    (hputs : Puts part a items a') (hpart : part ⊆ slots) (hnodup : (part.map Slot.name).Nodup) :
    (∀ slot ∈ slots, slot.name ∉ part.map Slot.name → slot.get a' = slot.get a) ∧
      ∃ absent, items.length + absent = part.length ∧
        List.Forall₂ (fun slot value => slot.Changes a a' value) part
          (items.map some ++ List.replicate absent none) := by
  induction hputs with
  | @done part a hdefault =>
    refine ⟨fun _ _ _ => rfl, part.length, Nat.zero_add _, ?_⟩
    rw [List.map_nil, List.nil_append, ← List.map_const', List.forall₂_map_right_iff,
      List.forall₂_same]
    exact fun slot hslot => ⟨hdefault slot hslot, rfl⟩
  | @item slot part x held items a a' hx _ ih =>
    obtain ⟨hslot, hpart⟩ := List.cons_subset.mp hpart
    obtain ⟨hnew, hnodup⟩ := List.nodup_cons.mp hnodup
    obtain ⟨hframe, absent, hlength, hchanges⟩ := ih hpart hnodup
    have hother : ∀ other ∈ slots, other.name ≠ slot.name →
        other.get (slot.put held a) = other.get a := fun other hother hne =>
      h.get_put_of_ne slot hslot other hother hne held a
    refine ⟨fun other hmem hnot => ?_, absent, by simp [← hlength]; omega, .cons ?_ ?_⟩
    · obtain ⟨hne, hnot⟩ := not_or.mp (mt List.mem_cons.mpr hnot)
      exact (hframe other hmem hnot).trans (hother other hmem hne)
    · have hget : slot.get a' = held := (hframe slot hslot hnew).trans (h.get_put slot hslot held a)
      exact (congrArg (slot.Means x) hget).mpr hx
    · refine forall₂_imp_of_mem (fun other hmem value hvalue => ?_) hchanges
      have hne : other.name ≠ slot.name := fun heq => hnew (heq ▸ List.mem_map_of_mem hmem)
      cases value with
      | none => exact ⟨hvalue.1, hvalue.2.trans (hother other (hpart hmem) hne)⟩
      | some y => exact hvalue

theorem default_ne_none_of_changes {absent : Nat}
    (h : List.Forall₂ (fun slot value => slot.Changes a a' value) slots
      (List.replicate absent none)) : ∀ slot ∈ slots, slot.default ≠ none := by
  induction slots generalizing absent with
  | nil => nofun
  | cons slot slots ih =>
    cases absent with
    | zero => cases h
    | succ absent =>
      obtain ⟨hslot, h⟩ := List.forall₂_cons.mp h
      exact List.forall_mem_cons.mpr ⟨hslot.1, ih h⟩

theorem exists_puts {items : List Value} {absent : Nat}
    (h : List.Forall₂ (fun slot value => slot.Changes initial a' value) slots
      (items.map some ++ List.replicate absent none)) (a : α) : ∃ a'', Puts slots a items a'' := by
  induction items generalizing slots a with
  | nil => exact ⟨a, .done a (default_ne_none_of_changes h)⟩
  | cons x items ih =>
    cases h with
    | cons hx h =>
      obtain ⟨a'', hputs⟩ := ih h _
      exact ⟨a'', .item hx hputs⟩

theorem puts_of_changes (h : Lawful slots initial) {items : List Value} {absent : Nat}
    (ha : List.Forall₂ (fun slot value => slot.Changes initial a value) slots
      (items.map some ++ List.replicate absent none)) : Puts slots initial items a := by
  obtain ⟨a', hputs⟩ := exists_puts ha initial
  obtain ⟨-, absent', hlength, ha'⟩ := hputs.sound h (List.Subset.refl _) h.nodup
  obtain rfl : absent' = absent := by
    have hlength' := ha.length_eq
    simp only [List.length_append, List.length_map, List.length_replicate] at hlength'
    omega
  rwa [h.eq_of_changes ha ha']

/-! ## Records -/

theorem Lawful.given_unique (h : Lawful slots initial) {x : Value} (ha : Given slots x a)
    (ha' : Given slots x a') : a = a' := by
  obtain ⟨values, hvalues, ha⟩ := ha
  obtain ⟨values', hvalues', ha'⟩ := ha'
  obtain rfl := assigns_unique hvalues hvalues'
  exact h.eq_of_changes (h.changes_of_holds ha) (h.changes_of_holds ha')

/-- **A record is read from what is given for its fields**, in an object or in a list. -/
theorem denotes_record (h : Lawful slots initial) (name : String) :
    (record slots name initial).reader.Denotes (Given slots) := by
  refine denotes_typed (fun {c behind a rest} hc htakes => ?_) fun {text x a rest} hx ha _ => ?_
  · split at htakes
    · next hbrace =>
      subst hbrace
      obtain ⟨members, entries, given, hobject, hentries, hsteps, hmissing⟩ := sound_object h htakes
      obtain ⟨values, hvalues, hchanges⟩ := hsteps.changes h (missing?_eq_none_iff.mp hmissing)
      exact ⟨_, hobject, values, .object hentries hvalues, h.holds_of_changes hchanges⟩
    · next hbrace =>
      obtain rfl : c = '[' := by simpa [hbrace] using hc
      obtain ⟨items, hleft, hputs⟩ := sound_elements h.denotes htakes
      obtain ⟨-, absent, hlength, hchanges⟩ := hputs.sound h (List.Subset.refl _) h.nodup
      exact ⟨.list items, spells_list_iff.mpr ⟨behind, rfl, hleft⟩, _,
        .list (by simpa using hlength), h.holds_of_changes hchanges⟩
  · obtain ⟨values, hassigns, ha⟩ := ha
    have hchanges := h.changes_of_holds ha
    cases hassigns with
    | object hentries hvalues =>
      obtain ⟨given, hsteps, hgiven⟩ := steps_of_changes h hvalues hchanges
      obtain ⟨behind, rfl, htakes⟩ :=
        complete_object h hx hentries hsteps (missing?_eq_none_iff.mpr hgiven)
      exact ⟨'{', behind, rfl, rfl, htakes⟩
    | list hlength =>
      obtain ⟨behind, rfl, hleft⟩ := spells_list_iff.mp hx
      refine ⟨'[', behind, rfl, rfl, ?_⟩
      exact complete_elements h.denotes hleft (puts_of_changes h hchanges)

end Slot

end CycleBench.Json
