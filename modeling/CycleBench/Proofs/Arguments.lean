import CycleBench.CommandLine.Command
import CycleBench.Proofs.Agreement
import Mathlib.Data.List.Find
import Mathlib.Data.List.Nodup
import Mathlib.Data.List.TakeWhile

/-!
Reading arguments. What is read depends on the settings only through what options do to them, so a
relation that every option keeps is kept by the whole reading (`Grammar.read_agree`). From this and
from how a reading goes on (`Grammar.read_append`): a flag that was not given before adds itself and
changes nothing else, wherever an option may stand (`readCommand_insert`).
-/

namespace CycleBench.CommandLine

/-! ## Spellings -/

/-- An argument that is neither plain nor two dashes. -/
def Spelling.isOption : Spelling → Bool
  | .long .. | .short .. => true
  | .escape | .plain => false

theorem Spelling.of_eq_escape_iff {argument : String} :
    Spelling.of argument = .escape ↔ argument = "--" := by
  constructor
  · intro h
    unfold Spelling.of at h
    split at h
    · next htext => exact String.toList_inj.mp htext
    all_goals cases h
  · rintro rfl
    rfl

theorem Spelling.eq_of_long {argument name : String}
    (h : Spelling.of argument = .long name none) : argument = "--" ++ name := by
  unfold Spelling.of at h
  split at h
  · cases h
  · next rest _ htext =>
    unfold splitValue at h
    split at h
    · cases h
      rw [← String.toList_inj, htext, String.toList_append]
      simp
    · cases h
  · cases h
  · cases h

theorem Spelling.ne_dashes {argument : String} {spelling : Spelling}
    (h : Spelling.of argument = spelling) (hspelling : spelling ≠ .escape) : argument ≠ "--" :=
  fun hargument => hspelling (h.symm.trans (of_eq_escape_iff.mpr hargument))

theorem ne_dashes_of_isSeparateValue {negative : Bool} {argument : String}
    (h : isSeparateValue negative argument = true) : argument ≠ "--" := by
  rintro rfl
  cases negative <;> exact absurd h (by decide)

/-- The arguments in front of two dashes; only these can be options. -/
def beforeEscape (arguments : List String) : List String :=
  arguments.takeWhile (· ≠ "--")

theorem dashes_notMem_beforeEscape (arguments : List String) :
    "--" ∉ beforeEscape arguments := fun h => by
  simpa using List.mem_takeWhile_imp h

theorem notMem_beforeEscape_cons {text argument : String} {rest : List String}
    (h : text ∉ beforeEscape (argument :: rest)) (hargument : argument ≠ "--") :
    argument ≠ text ∧ text ∉ beforeEscape rest := by
  unfold beforeEscape at h
  rw [List.takeWhile_cons_of_pos (by simpa using hargument), List.mem_cons, not_or] at h
  exact ⟨Ne.symm h.1, h.2⟩

theorem beforeEscape_append {before : List String} (h : "--" ∉ before) (after : List String) :
    beforeEscape (before ++ after) = before ++ beforeEscape after :=
  List.takeWhile_append_of_pos fun argument hargument => by
    simpa using fun heq : argument = "--" => h (heq ▸ hargument)

namespace Grammar

variable {α : Type} {grammar : Grammar α} {spec : OptionSpec α}

theorem mem_of_long? {name : String} (h : grammar.long? name = some spec) :
    spec ∈ grammar.options ∧ spec.name = name := by
  unfold long? at h
  exact ⟨List.mem_of_find?_eq_some h, by simpa using List.find?_some h⟩

theorem mem_of_short? {letter : Char} (h : grammar.short? letter = some spec) :
    spec ∈ grammar.options ∧ spec.short = some letter := by
  unfold short? at h
  exact ⟨List.mem_of_find?_eq_some h, by simpa using List.find?_some h⟩

end Grammar

/-! ## Reading from related settings -/

section Related

variable {α : Type} {R : Settings α → Settings α → Prop}

/-- Giving the option to related settings leaves related settings. -/
structure OptionSpec.Respects (R : Settings α → Settings α → Prop) (spec : OptionSpec α) :
    Prop where
  set : ∀ {f s s'}, spec.action = .flag f → R s s' → Agree R (s.set spec f) (s'.set spec f)
  store : ∀ {negative f s s'}, spec.action = .value negative f → R s s' → ∀ text,
    Agree R (s.store spec f text) (s'.store spec f text)

namespace Grammar

/-- Every option respects a relation, save for a flag that has to be spelled in full. -/
structure Respects (R : Settings α → Settings α → Prop) (flag : String) (grammar : Grammar α) :
    Prop where
  long : ∀ {name spec}, grammar.long? name = some spec →
    spec.Respects R ∨ name = flag ∧ ∃ f, spec.action = .flag f
  short : ∀ {letter spec}, grammar.short? letter = some spec → spec.Respects R
  positional : ∀ {spec}, grammar.positional = some spec → spec.Respects R ∧
    ∀ {s s'}, R s s' → s.given.contains spec.name = s'.given.contains spec.name

/-- The settings are related, and the same option waits, if any does. -/
inductive Reads (R : Settings α → Settings α → Prop) :
    Settings α × Option (Waiting α) → Settings α × Option (Waiting α) → Prop
  | done {s s' : Settings α} (h : R s s') : Reads R (s, none) (s', none)
  | waits {s s' : Settings α} {waiting : Waiting α} (h : R s s')
    (hstore : ∀ {s s'}, R s s' → ∀ text, Agree R (s.store waiting.spec waiting.store text)
      (s'.store waiting.spec waiting.store text)) :
    Reads R (s, some waiting) (s', some waiting)

variable {flag : String} {grammar : Grammar α} {s s' : Settings α}

theorem letters_agree (h : grammar.Respects R flag) (text : List Char) (hR : R s s') :
    Agree (Reads R) (grammar.letters text s) (grammar.letters text s') := by
  induction text generalizing s s' with
  | nil => exact .ok (.done hR)
  | cons letter rest ih =>
    unfold letters
    cases hspec : grammar.short? letter with
    | none => exact .error _
    | some spec =>
      have hrespects := h.short hspec
      simp only
      cases haction : spec.action with
      | display text => exact .error _
      | flag f =>
        simp only
        have hset := hrespects.set haction hR
        generalize s.set spec f = result at hset ⊢
        generalize s'.set spec f = result' at hset ⊢
        cases hset with
        | error halt => exact .error halt
        | ok hR => exact ih hR
      | value negative f =>
        simp only
        split
        · exact .ok (.waits hR fun hR => hrespects.store haction hR)
        · exact (hrespects.store haction hR _).map fun _ _ hR => Reads.done hR
        · exact (hrespects.store haction hR _).map fun _ _ hR => Reads.done hR

theorem longOption_agree (h : grammar.Respects R flag) (name : String) (attached : Option String)
    (hname : ¬(name = flag ∧ attached = none)) (hR : R s s') :
    Agree (Reads R) (grammar.longOption name attached s) (grammar.longOption name attached s') := by
  unfold longOption
  cases hspec : grammar.long? name with
  | none => exact .error _
  | some spec =>
    rcases h.long hspec with hrespects | ⟨rfl, f, hflag⟩
    · simp only
      split
      · exact .error _
      · next haction =>
        exact (hrespects.set haction hR).map fun _ _ hR => Reads.done hR
      · next haction =>
        exact (hrespects.store haction hR _).map fun _ _ hR => Reads.done hR
      · next haction => exact .ok (.waits hR fun hR => hrespects.store haction hR)
      · exact .error _
    · cases attached with
      | none => exact absurd ⟨rfl, rfl⟩ hname
      | some value =>
        simp only [hflag]
        exact .error _

theorem plain_agree (h : grammar.Respects R flag) (argument : String) (hR : R s s') :
    Agree R (grammar.plain s argument) (grammar.plain s' argument) := by
  unfold plain
  cases hspec : grammar.positional with
  | none => exact .error _
  | some spec =>
    obtain ⟨hrespects, hgiven⟩ := h.positional hspec
    simp only
    split
    · next haction =>
      rw [hgiven hR]
      split
      · exact .error _
      · exact hrespects.store haction hR argument
    · exact .error _

theorem argument_agree (h : grammar.Respects R flag) {argument : String}
    (hflag : argument ≠ "--" ++ flag) (hR : R s s') :
    Agree (Reads R) (grammar.argument s argument) (grammar.argument s' argument) := by
  unfold Grammar.argument
  split
  · next name attached hspelling =>
    refine longOption_agree h name attached ?_ hR
    rintro ⟨rfl, rfl⟩
    exact hflag (Spelling.eq_of_long hspelling)
  · exact letters_agree h _ hR
  · exact (plain_agree h argument hR).map fun _ _ hR => Reads.done hR

/-- Plain arguments, behind two dashes. -/
theorem plains_agree (h : grammar.Respects R flag) (arguments : List String) (hR : R s s') :
    Agree R (arguments.foldlM grammar.plain s) (arguments.foldlM grammar.plain s') := by
  induction arguments generalizing s s' with
  | nil => exact .ok hR
  | cons argument arguments ih =>
    rw [List.foldlM_cons, List.foldlM_cons]
    exact (plain_agree h argument hR).bind fun _ _ hR => ih hR

/-- A relation that every option respects is kept by the reading, if the flag that may not respect
it is not among the arguments. -/
theorem read_agree (h : grammar.Respects R flag) (commands : Bool) (arguments : List String)
    (hflag : "--" ++ flag ∉ beforeEscape arguments) (hR : R s s') :
    Agree (fun result result' => R result.1 result'.1 ∧ result.2 = result'.2)
      (grammar.read commands arguments s) (grammar.read commands arguments s') := by
  -- an option and its separate value are read in one turn, hence by the number of arguments
  induction hlength : arguments.length using Nat.strongRecOn generalizing arguments s s' with
  | _ length ih =>
  cases arguments with
  | nil => exact .ok ⟨hR, rfl⟩
  | cons argument rest =>
    unfold read
    split
    · exact (plains_agree h rest hR).map fun _ _ hR => ⟨hR, rfl⟩
    · next hspelling =>
      obtain ⟨-, hrest⟩ := notMem_beforeEscape_cons hflag (Spelling.ne_dashes hspelling nofun)
      split
      · exact .ok ⟨hR, rfl⟩
      · have hplain := plain_agree h argument hR
        generalize grammar.plain s argument = result at hplain ⊢
        generalize grammar.plain s' argument = result' at hplain ⊢
        cases hplain with
        | error halt => exact .error halt
        | ok hR => exact ih _ (by simp only [← hlength, List.length_cons]; omega) rest hrest hR rfl
    · next hescape _ =>
      obtain ⟨hne, hrest⟩ := notMem_beforeEscape_cons hflag (Spelling.ne_dashes rfl hescape)
      have hargument := argument_agree h hne hR
      generalize grammar.argument s argument = result at hargument ⊢
      generalize grammar.argument s' argument = result' at hargument ⊢
      cases hargument with
      | error halt => exact .error halt
      | ok hreads =>
        cases hreads with
        | done hR => exact ih _ (by simp only [← hlength, List.length_cons]; omega) rest hrest hR rfl
        | @waits s s' waiting hR hstore =>
          cases rest with
          | nil => exact .error _
          | cons value rest =>
            simp only
            split
            · next hvalue =>
              have hrest := notMem_beforeEscape_cons hrest (ne_dashes_of_isSeparateValue hvalue)
              have hstore := hstore hR value
              generalize s.store waiting.spec waiting.store value = result at hstore ⊢
              generalize s'.store waiting.spec waiting.store value = result' at hstore ⊢
              cases hstore with
              | error halt => exact .error halt
              | ok hR => exact ih _ (by simp only [← hlength, List.length_cons]; omega) rest hrest.2 hR rfl
            · exact .error _

end Grammar

end Related

/-! ## Reading on -/

namespace Grammar

variable {α : Type} {grammar : Grammar α}

/-- The reading goes on where it ended, unless an option still waits for its value there. -/
theorem read_append {before : List String} (after : List String) {s : Settings α}
    (hescape : "--" ∉ before) (hwaits : ∀ option,
      grammar.read false before s ≠ .error (.usage (.missingValue option))) :
    grammar.read false (before ++ after) s =
      (grammar.read false before s).bind fun result => grammar.read false after result.1 := by
  -- as before, one turn may read two arguments
  induction hlength : before.length using Nat.strongRecOn generalizing before s with
  | _ length ih =>
  cases before with
  | nil => rfl
  | cons argument rest =>
    have hdashes := List.ne_of_not_mem_cons hescape
    have hrest := List.not_mem_of_not_mem_cons hescape
    have hshort : rest.length < length := by simp only [← hlength, List.length_cons]; omega
    rw [List.cons_append, read]
    rw [read] at hwaits ⊢
    split
    · next hspelling => exact absurd (Spelling.of_eq_escape_iff.mp hspelling) (Ne.symm hdashes)
    · next hspelling =>
      simp only [hspelling, Bool.false_eq_true, if_false] at hwaits ⊢
      cases hplain : grammar.plain s argument with
      | error halt => rfl
      | ok s =>
        simp only [hplain] at hwaits
        exact ih _ hshort hrest hwaits rfl
    · next hescape hplain =>
      cases hargument : grammar.argument s argument with
      | error halt => simp [Except.bind]
      | ok result =>
        obtain ⟨s, waiting⟩ := result
        cases waiting with
        | none =>
          simp only [hargument] at hwaits ⊢
          exact ih _ hshort hrest hwaits rfl
        | some waiting =>
          simp only [hargument] at hwaits ⊢
          cases rest with
          | nil => exact absurd rfl (hwaits _)
          | cons value rest =>
            simp only [List.cons_append] at hwaits ⊢
            split
            · next hvalue =>
              simp only [hvalue, if_true] at hwaits
              cases hstore : s.store waiting.spec waiting.store value with
              | error halt => rfl
              | ok s =>
                simp only [hstore] at hwaits
                have hrest := List.not_mem_of_not_mem_cons hrest
                exact ih _ (by simp only [List.length_cons] at hshort; omega) hrest hwaits rfl
            · rfl

/-- No option takes a value. -/
def Valueless (grammar : Grammar α) : Prop :=
  ∀ spec ∈ grammar.options, ∀ negative f, spec.action ≠ .value negative f

theorem snd_eq_none_of_map {result : Except Halt (Settings α)}
    {pair : Settings α × Option (Waiting α)} (h : result.map (·, none) = .ok pair) :
    pair.2 = none := by
  cases result with
  | error halt => cases h
  | ok s =>
    cases h
    rfl

theorem letters_snd (hgrammar : grammar.Valueless) {text : List Char} {s : Settings α}
    {pair : Settings α × Option (Waiting α)} (h : grammar.letters text s = .ok pair) :
    pair.2 = none := by
  induction text generalizing s with
  | nil =>
    cases h
    rfl
  | cons letter rest ih =>
    unfold letters at h
    split at h
    · cases h
    · next spec hspec =>
      split at h
      · cases h
      · split at h
        · cases h
        · exact ih h
      · next haction => exact absurd haction (hgrammar spec (mem_of_short? hspec).1 _ _)

theorem longOption_snd (hgrammar : grammar.Valueless) {name : String} {attached : Option String}
    {s : Settings α} {pair : Settings α × Option (Waiting α)}
    (h : grammar.longOption name attached s = .ok pair) : pair.2 = none := by
  unfold longOption at h
  split at h
  · cases h
  · next spec hspec =>
    have haction := hgrammar spec (mem_of_long? hspec).1
    split at h
    · cases h
    · exact snd_eq_none_of_map h
    · exact snd_eq_none_of_map h
    · next hvalue => exact absurd hvalue (haction _ _)
    · cases h

theorem argument_snd (hgrammar : grammar.Valueless) {argument : String} {s : Settings α}
    {pair : Settings α × Option (Waiting α)} (h : grammar.argument s argument = .ok pair) :
    pair.2 = none := by
  unfold Grammar.argument at h
  split at h
  · exact longOption_snd hgrammar h
  · exact letters_snd hgrammar h
  · exact snd_eq_none_of_map h

/-- Options without values are read one by one. -/
theorem read_options_append (hgrammar : grammar.Valueless) (commands : Bool)
    {options : List String} (hoptions : ∀ option ∈ options, (Spelling.of option).isOption = true)
    (after : List String) (s : Settings α) :
    grammar.read commands (options ++ after) s =
      (grammar.read commands options s).bind fun result => grammar.read commands after result.1 := by
  induction options generalizing s with
  | nil => rfl
  | cons option rest ih =>
    obtain ⟨hoption, hrest⟩ := List.forall_mem_cons.mp hoptions
    rw [List.cons_append, read, read]
    split
    · next h => simp [h, Spelling.isOption] at hoption
    · next h => simp [h, Spelling.isOption] at hoption
    · cases hargument : grammar.argument s option with
      | error halt => simp [Except.bind]
      | ok pair =>
        obtain ⟨s, waiting⟩ := pair
        cases argument_snd hgrammar hargument
        simp only
        exact ih hrest s

end Grammar

/-! ## One flag more -/

section Flags

variable {α β : Type} {flag : String} {f : α → α}

/-- Setting what `f` sets and what the option sets is the same in either order. -/
def Action.Commutes (f : α → α) : Action α → Prop
  | .flag set => ∀ values, set (f values) = f (set values)
  | .value _ store => ∀ text values, store text (f values) = (store text values).map f
  | .display _ => True

theorem Action.commutes_id (action : Action α) : action.Commutes id := by
  cases action with
  | flag set => exact fun _ => rfl
  | value negative store => exact fun text values => Option.map_id.symm ▸ rfl
  | display text => trivial

/-- Options for a part of the settings, `f` being what `g` is to that part. -/
theorem OptionSpec.within_commutes {spec : OptionSpec α} {get : β → α} {put : α → β → β}
    {g : β → β} (hget : ∀ b, get (g b) = f (get b)) (hput : ∀ a b, put (f a) (g b) = g (put a b))
    (h : spec.action.Commutes f) : (spec.within get put).action.Commutes g := by
  obtain ⟨name, short, repeatable, required, action⟩ := spec
  cases action with
  | flag set =>
    intro b
    have hset : set (f (get b)) = f (set (get b)) := h (get b)
    simp only [hget, hset, hput]
  | value negative store =>
    intro text b
    have hstore : store text (f (get b)) = (store text (get b)).map f := h text (get b)
    simp only [hget, hstore, Option.map_map, Function.comp_def, hput]
  | display text => trivial

/-- The second settings are the first with the flag given, which was not given before. -/
structure Adds (flag : String) (f : α → α) (s s' : Settings α) : Prop where
  values : s'.values = f s.values
  given : ∀ name, name ∈ s'.given ↔ name = flag ∨ name ∈ s.given
  fresh : flag ∉ s.given

namespace Adds

variable {s s' : Settings α} {spec : OptionSpec α}

theorem contains (h : Adds flag f s s') {name : String} (hname : name ≠ flag) :
    s'.given.contains name = s.given.contains name := by
  rw [Bool.eq_iff_iff, List.contains_iff_mem, List.contains_iff_mem, h.given]
  simp [hname]

theorem note (h : Adds flag f s s') (hname : spec.name ≠ flag) :
    Agree (Adds flag f) (s.note spec) (s'.note spec) := by
  unfold Settings.note
  rw [h.contains hname]
  split
  · exact .error _
  · refine .ok ⟨h.values, fun name => ?_, ?_⟩
    · simp only [List.mem_cons, h.given]
      exact or_left_comm
    · simp [h.fresh, Ne.symm hname]

/-- Giving another option changes nothing about this. -/
theorem respects (hname : spec.name ≠ flag) (hcommutes : spec.action.Commutes f) :
    spec.Respects (Adds flag f) where
  set haction h := by
    rw [haction] at hcommutes
    refine (h.note hname).bind fun s s' h => .ok ⟨?_, h.given, h.fresh⟩
    simp only [h.values, hcommutes s.values]
  store haction h text := by
    rw [haction] at hcommutes
    refine (h.note hname).bind fun s s' h => ?_
    rw [h.values, hcommutes text s.values]
    split
    · next values hstore =>
      rw [hstore]
      exact .ok ⟨rfl, h.given, h.fresh⟩
    · next hstore =>
      rw [hstore]
      exact .error _

end Adds

/-- So it is for every option and for the positional argument. -/
def Grammar.Commutes (f : α → α) (grammar : Grammar α) : Prop :=
  ∀ spec ∈ grammar.options ++ grammar.positional.toList, spec.action.Commutes f

/-- Which options exclude each other does not matter. -/
theorem Grammar.Commutes.exclude {grammar : Grammar α} (h : grammar.Commutes f)
    (exclusive : List (String × String)) : ({ grammar with exclusive } : Grammar α).Commutes f :=
  h

/-- A grammar in which the flag can be given, once and behind its long name, with the effect of
`f`. -/
structure Grammar.HasFlag (flag : String) (f : α → α) (grammar : Grammar α) : Prop where
  spelling : Spelling.of ("--" ++ flag) = .long flag none
  mem : OptionSpec.flag flag none f ∈ grammar.options
  nodup : (grammar.options.map (·.name)).Nodup
  positional : ∀ spec ∈ grammar.positional, spec.name ≠ flag
  exclusive : ∀ pair ∈ grammar.exclusive, pair.1 ≠ flag ∧ pair.2 ≠ flag
  commutes : grammar.Commutes f

namespace Grammar.HasFlag

variable {grammar : Grammar α} {s s' : Settings α}

theorem eq_of_name (h : grammar.HasFlag flag f) {spec : OptionSpec α}
    (hspec : spec ∈ grammar.options) (hname : spec.name = flag) :
    spec = OptionSpec.flag flag none f :=
  List.inj_on_of_nodup_map h.nodup hspec h.mem hname

theorem respects (h : grammar.HasFlag flag f) : grammar.Respects (Adds flag f) flag where
  long {name spec} hspec := by
    obtain ⟨hmem, rfl⟩ := mem_of_long? hspec
    by_cases hname : spec.name = flag
    · refine .inr ⟨hname, f, ?_⟩
      rw [h.eq_of_name hmem hname]
      rfl
    · exact .inl (Adds.respects hname (h.commutes spec (List.mem_append_left _ hmem)))
  short {letter spec} hspec := by
    obtain ⟨hmem, hletter⟩ := mem_of_short? hspec
    refine Adds.respects (fun hname => ?_) (h.commutes spec (List.mem_append_left _ hmem))
    -- the flag has no letter
    rw [h.eq_of_name hmem hname] at hletter
    cases hletter
  positional {spec} hspec := by
    have hname := h.positional spec hspec
    have hmem : spec ∈ grammar.options ++ grammar.positional.toList := by simp [hspec]
    exact ⟨Adds.respects hname (h.commutes spec hmem), fun hadds => (hadds.contains hname).symm⟩

theorem long? (h : grammar.HasFlag flag f) :
    grammar.long? flag = some (OptionSpec.flag flag none f) := by
  cases hspec : grammar.long? flag with
  | none => exact absurd (decide_eq_true rfl) (List.find?_eq_none.mp hspec _ h.mem)
  | some spec =>
    obtain ⟨hmem, hname⟩ := mem_of_long? hspec
    rw [h.eq_of_name hmem hname]

/-- The flag sets what it sets, and is noted. -/
theorem read_flag (h : grammar.HasFlag flag f) (commands : Bool) (rest : List String)
    (hfresh : flag ∉ s.given) :
    grammar.read commands (("--" ++ flag) :: rest) s =
      grammar.read commands rest ⟨f s.values, flag :: s.given⟩ := by
  have hgiven : s.given.contains flag = false := by simp [hfresh]
  have hset : s.set (OptionSpec.flag flag none f) f = .ok ⟨f s.values, flag :: s.given⟩ := by
    simp only [Settings.set, Settings.note, OptionSpec.flag, hgiven]
    rfl
  have hargument : grammar.argument s ("--" ++ flag) =
      .ok (⟨f s.values, flag :: s.given⟩, none) := by
    simp only [Grammar.argument, h.spelling, longOption, h.long?]
    exact congrArg (Except.map (·, none)) hset
  rw [read]
  simp only [h.spelling, hargument]

/-- What is required or excluded has nothing to do with the flag. -/
theorem complete (h : grammar.HasFlag flag f) (hadds : Adds flag f s s') :
    grammar.complete s' = (grammar.complete s).map f := by
  have hexclusive :
      grammar.exclusive.find? (fun pair =>
          s'.given.contains pair.1 && s'.given.contains pair.2) =
        grammar.exclusive.find? fun pair =>
          s.given.contains pair.1 && s.given.contains pair.2 := by
    refine List.find?_congr fun pair hpair => ?_
    obtain ⟨hfirst, hsecond⟩ := h.exclusive pair hpair
    rw [hadds.contains hfirst, hadds.contains hsecond]
  have hrequired :
      (grammar.options ++ grammar.positional.toList).find? (fun spec =>
          spec.required && !s'.given.contains spec.name) =
        (grammar.options ++ grammar.positional.toList).find? fun spec =>
          spec.required && !s.given.contains spec.name := by
    refine List.find?_congr fun spec hspec => ?_
    by_cases hname : spec.name = flag
    · rcases List.mem_append.mp hspec with hoption | hpositional
      · rw [h.eq_of_name hoption hname]
        rfl
      · exact absurd hname (h.positional spec (Option.mem_toList.mp hpositional))
    · rw [hadds.contains hname]
  unfold Grammar.complete
  simp only [hexclusive, hrequired]
  split
  · rfl
  · split
    · rfl
    · rw [hadds.values]
      rfl

end Grammar.HasFlag

/-- A place in the arguments of a command where the flag can be given, which it is not yet: no two
dashes stand before it, and no option there still waits for its value. -/
structure Grammar.HasRoom (grammar : Grammar (Nat × β)) (initial : β) (flag : String)
    (before after : List String) : Prop where
  escape : "--" ∉ before
  waits : ∀ option,
    grammar.read false before ⟨(0, initial), []⟩ ≠ .error (.usage (.missingValue option))
  fresh : "--" ++ flag ∉ beforeEscape (before ++ after)

/-- **A flag adds itself.** Where there is room for it, a flag sets what it sets, and everything
else is read as without it. -/
theorem readCommand_insert {grammar : Grammar (Nat × β)} {f : Nat × β → Nat × β}
    (h : grammar.HasFlag flag f) {initial : β} {before after : List String}
    (hroom : grammar.HasRoom initial flag before after) :
    readCommand grammar initial (before ++ ("--" ++ flag) :: after) =
      (readCommand grammar initial (before ++ after)).map f := by
  obtain ⟨hescape, hwaits, hflag⟩ := hroom
  rw [beforeEscape_append hescape, List.mem_append, not_or] at hflag
  unfold readCommand
  rw [grammar.read_append _ hescape hwaits, grammar.read_append _ hescape hwaits]
  -- the flag is not given before its place
  have hstart : Adds flag f ⟨(0, initial), []⟩ ⟨f (0, initial), [flag]⟩ :=
    ⟨rfl, by simp, by simp⟩
  have hbefore : "--" ++ flag ∉ beforeEscape before := fun hmem =>
    hflag.1 ((List.takeWhile_sublist _).subset hmem)
  have hfresh := grammar.read_agree h.respects false before hbefore hstart
  cases hread : grammar.read false before ⟨(0, initial), []⟩ with
  | error halt => rfl
  | ok result =>
    obtain ⟨s, named⟩ := result
    rw [hread] at hfresh
    obtain ⟨_, -, hfresh, -⟩ := hfresh.of_ok
    have hadds : Adds flag f s ⟨f s.values, flag :: s.given⟩ :=
      ⟨rfl, fun _ => List.mem_cons, hfresh.fresh⟩
    have hagree := grammar.read_agree h.respects false after hflag.2 hadds
    simp only [Except.bind, h.read_flag false after hfresh.fresh]
    generalize grammar.read false after s = result at hagree ⊢
    generalize grammar.read false after ⟨f s.values, flag :: s.given⟩ = result' at hagree ⊢
    cases hagree with
    | error halt => rfl
    | ok hagree => exact h.complete hagree.1

end Flags

end CycleBench.CommandLine
