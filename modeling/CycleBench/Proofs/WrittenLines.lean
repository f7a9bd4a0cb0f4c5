import CycleBench.Proofs.Arguments
import Mathlib.Data.List.Induction

/-!
Command lines as lists of occurrences. However the options are spelled, the arguments of a command
are read one occurrence after the other:

* `Occurrence.Spelled`, `Written`: the arguments that occurrences can be written as;
* `Grammar.give`: what an occurrence does to the settings, and when it does (`give_eq_ok_iff`);
* `read_written`: the reading of written occurrences is what they do in their order;
* `foldlM_give`: the values that are read, if every occurrence adds what it tells;
* `usage_of_repeated`, `usage_of_exclusive`: lines that are refused.
-/

namespace CycleBench.CommandLine

/-! ## Occurrences -/

/-- An occurrence of a flag, of an option with its value, or of the plain argument of a command. -/
inductive Occurrence where
  | flag (name : String)
  | option (name value : String)
  | plain (value : String)
deriving DecidableEq

/-- The flag and the option that may occur more than once. -/
def repeatables : List String :=
  ["verbose", "stats-sections"]

/-- Options whose values may be negative. -/
def signedNames : List String :=
  ["result", "cause"]

/-- Names that have a letter of their own. -/
def letterNames : List (Char × String) :=
  [('v', "verbose"), ('c', "config"), ('g', "group"), ('s', "single"), ('l', "list"), ('o', "out")]

/-- One dash, a letter, and what is written right behind it. -/
def letterArgument (letter : Char) (rest : String) : String :=
  String.ofList ('-' :: letter :: rest.toList)

/-- A value that can stand in an argument of its own: it does not start with a dash, unless it is a
negative integer and the option takes such. -/
def IsSeparable (name value : String) : Prop :=
  value.toList.head? ≠ some '-' ∨ name ∈ signedNames ∧ ∃ n : Nat, value = "-" ++ toString n

namespace Occurrence

def name : Occurrence → String
  | flag name | option name _ => name
  | plain _ => "manifest"

def value : Occurrence → String
  | flag _ => ""
  | option _ value | plain value => value

@[simp]
theorem name_flag (name : String) : (flag name).name = name := rfl

@[simp]
theorem name_option (name value : String) : (option name value).name = name := rfl

@[simp]
theorem name_plain (value : String) : (plain value).name = "manifest" := rfl

@[simp]
theorem value_option (name value : String) : (option name value).value = value := rfl

@[simp]
theorem value_plain (value : String) : (plain value).value = value := rfl

/-- The same option, or the plain argument, with another value. -/
def withValue (value : String) : Occurrence → Occurrence
  | flag name => flag name
  | option name _ => option name value
  | plain _ => plain value

@[simp]
theorem name_withValue (o : Occurrence) (value : String) : (o.withValue value).name = o.name := by
  cases o <;> rfl

/-- The arguments that an occurrence can be written as. -/
inductive Spelled : Occurrence → List String → Prop
  | flag (name : String) : Spelled (flag name) ["--" ++ name]
  | attached (name value : String) : Spelled (option name value) ["--" ++ name ++ "=" ++ value]
  | separate {name value : String} (h : IsSeparable name value) :
    Spelled (option name value) ["--" ++ name, value]
  | plain {value : String} (h : value.toList.head? ≠ some '-') : Spelled (plain value) [value]
  | letterFlag {letter : Char} {name : String} (h : (letter, name) ∈ letterNames) :
    Spelled (.flag name) [letterArgument letter ""]
  | letterEquals {letter : Char} {name : String} (h : (letter, name) ∈ letterNames)
    (value : String) : Spelled (option name value) [letterArgument letter ("=" ++ value)]
  | letterAttached {letter : Char} {name value : String} (h : (letter, name) ∈ letterNames)
    (hempty : value ≠ "") (hequals : value.toList.head? ≠ some '=') :
    Spelled (option name value) [letterArgument letter value]
  | letterSeparate {letter : Char} {name value : String} (h : (letter, name) ∈ letterNames)
    (hvalue : IsSeparable name value) :
    Spelled (option name value) [letterArgument letter "", value]

end Occurrence

/-- Arguments that spell the occurrences, one after the other. -/
inductive Written : List Occurrence → List String → Prop
  | nil : Written [] []
  | cons {o : Occurrence} {line : List Occurrence} {first rest : List String}
    (hfirst : o.Spelled first) (hrest : Written line rest) : Written (o :: line) (first ++ rest)

theorem Written.append {line behind : List Occurrence} {arguments rest : List String}
    (h : Written line arguments) (hbehind : Written behind rest) :
    Written (line ++ behind) (arguments ++ rest) := by
  induction h with
  | nil => exact hbehind
  | cons hfirst _ ih =>
    rw [List.cons_append, List.append_assoc]
    exact .cons hfirst ih

/-! ## Spellings -/

theorem splitValue_of_notMem {name : List Char} (h : '=' ∉ name) :
    splitValue name = (String.ofList name, none) := by
  have hdrop : name.dropWhile (· ≠ '=') = [] :=
    List.dropWhile_eq_nil_iff.mpr fun c hc => by simpa using fun heq : c = '=' => h (heq ▸ hc)
  rw [splitValue, hdrop]

theorem splitValue_append {name : List Char} (h : '=' ∉ name) (value : List Char) :
    splitValue (name ++ '=' :: value) = (String.ofList name, some (String.ofList value)) := by
  have hname : ∀ c ∈ name, (decide (c ≠ '=')) = true := fun c hc => by
    simpa using fun heq : c = '=' => h (heq ▸ hc)
  have hdrop : (name ++ '=' :: value).dropWhile (· ≠ '=') = '=' :: value := by
    rw [List.dropWhile_append_of_pos hname]
    rfl
  have htake : (name ++ '=' :: value).takeWhile (· ≠ '=') = name := by
    rw [List.takeWhile_append_of_pos hname]
    exact List.append_nil name
  simp only [splitValue, hdrop, htake]

theorem Spelling.of_dashes {rest : List Char} (h : rest ≠ []) :
    Spelling.of (String.ofList ('-' :: '-' :: rest)) =
      .long (splitValue rest).1 (splitValue rest).2 := by
  obtain ⟨c, rest, rfl⟩ := List.exists_cons_of_ne_nil h
  simp only [Spelling.of, String.toList_ofList]

theorem Spelling.of_name {name : String} (hne : name ≠ "") (h : '=' ∉ name.toList) :
    Spelling.of ("--" ++ name) = .long name none := by
  have hargument : "--" ++ name = String.ofList ('-' :: '-' :: name.toList) := by
    rw [← String.toList_inj, String.toList_ofList]
    simp
  rw [hargument, of_dashes (by simpa using hne), splitValue_of_notMem h, String.ofList_toList]

theorem Spelling.of_name_value {name : String} (h : '=' ∉ name.toList) (value : String) :
    Spelling.of ("--" ++ name ++ "=" ++ value) = .long name (some value) := by
  have hargument : "--" ++ name ++ "=" ++ value =
      String.ofList ('-' :: '-' :: (name.toList ++ '=' :: value.toList)) := by
    rw [← String.toList_inj, String.toList_ofList]
    simp
  rw [hargument, of_dashes (by simp), splitValue_append h, String.ofList_toList,
    String.ofList_toList]

theorem Spelling.of_letter {letter : Char} (h : letter ≠ '-') (rest : String) :
    Spelling.of (letterArgument letter rest) = .short (letter :: rest.toList) := by
  unfold Spelling.of letterArgument
  rw [String.toList_ofList]
  split
  · next heq => exact absurd (List.cons.inj (List.cons.inj heq).2).1 h
  · next heq => exact absurd (List.cons.inj (List.cons.inj heq).2).1 h
  · next heq =>
    obtain ⟨rfl, rfl⟩ := List.cons.inj (List.cons.inj heq).2
    rfl
  · next hshort => exact absurd rfl (hshort _ _)

theorem Spelling.of_plain {value : String} (h : value.toList.head? ≠ some '-') :
    Spelling.of value = .plain := by
  unfold Spelling.of
  split
  · next htext => exact absurd (congrArg List.head? htext) h
  · next htext => exact absurd (congrArg List.head? htext) h
  · next htext => exact absurd (congrArg List.head? htext) h
  · rfl

theorem isSeparateValue_of_isSeparable {name value : String} {negative : Bool}
    (h : IsSeparable name value) (hnegative : name ∈ signedNames → negative = true) :
    isSeparateValue negative value = true := by
  unfold isSeparateValue
  split
  · next c rest htext =>
    rcases h with hhead | ⟨hname, n, rfl⟩
    · exact absurd (congrArg List.head? htext) hhead
    · -- behind the dash there are the digits of a number
      rw [String.toList_append, Nat.toString_eq_repr, Nat.toList_repr] at htext
      have hdigits : Nat.toDigits 10 n = c :: rest := (List.cons.inj htext).2
      rw [hnegative hname, ← hdigits, Bool.true_and, List.all_eq_true]
      exact fun _ => Nat.isDigit_of_mem_toDigits (by decide) (by decide)
  · rfl

/-! ## What occurrences do -/

section Settings

variable {α : Type} {s s' : Settings α} {spec : OptionSpec α} {halt : Halt}

namespace Settings

theorem note_eq_ok_iff : s.note spec = .ok s' ↔
    (spec.name ∈ s.given → spec.repeatable = true) ∧
      s' = { s with given := spec.name :: s.given } := by
  unfold note
  split
  · next h =>
    simp only [Bool.and_eq_true, List.contains_iff_mem, Bool.not_eq_true'] at h
    simp [h.1, h.2]
  · next h =>
    simp only [Bool.and_eq_true, List.contains_iff_mem, Bool.not_eq_true', not_and,
      Bool.not_eq_false] at h
    rw [Except.ok.injEq, eq_comm]
    exact (and_iff_right h).symm

theorem usage_of_note (h : s.note spec = .error halt) : ∃ error, halt = .usage error := by
  unfold note at h
  split at h
  · cases h
    exact ⟨_, rfl⟩
  · cases h

theorem store_of_note_error {f : String → α → Option α} (h : s.note spec = .error halt)
    (text : String) : s.store spec f text = .error halt := by
  rw [store, h]
  rfl

theorem store_eq_ok_iff {f : String → α → Option α} {text : String} :
    s.store spec f text = .ok s' ↔ (spec.name ∈ s.given → spec.repeatable = true) ∧
      ∃ values, f text s.values = some values ∧ s' = ⟨values, spec.name :: s.given⟩ := by
  cases hnote : s.note spec with
  | error halt =>
    rw [store_of_note_error hnote]
    refine ⟨nofun, fun h => ?_⟩
    rw [note_eq_ok_iff.mpr ⟨h.1, rfl⟩] at hnote
    cases hnote
  | ok noted =>
    obtain ⟨hfresh, rfl⟩ := note_eq_ok_iff.mp hnote
    rw [and_iff_right hfresh, store, hnote]
    cases hvalues : f text s.values with
    | none => simp [hvalues, bind, Except.bind, throw, throwThe, MonadExceptOf.throw]
    | some values => simp [hvalues, bind, Except.bind, pure, Except.pure, eq_comm]

theorem usage_of_store {f : String → α → Option α} {text : String}
    (h : s.store spec f text = .error halt) : ∃ error, halt = .usage error := by
  cases hnote : s.note spec with
  | error halt' =>
    rw [store_of_note_error hnote] at h
    cases h
    exact usage_of_note hnote
  | ok noted =>
    rw [store, hnote] at h
    simp only [bind, Except.bind] at h
    split at h
    · cases h
    · cases h
      exact ⟨_, rfl⟩

/-- A flag is an option whose value does not matter. -/
theorem set_eq_store (f : α → α) :
    s.set spec f = s.store spec (fun _ values => some (f values)) "" := rfl

end Settings

/-- What an occurrence of the option does to the values; `none` if its value is refused, or if it is
no occurrence of this kind. -/
def OptionSpec.effect (spec : OptionSpec α) (o : Occurrence) (values : α) : Option α :=
  match spec.action, o with
  | .flag set, .flag _ => some (set values)
  | .value _ store, .option _ value | .value _ store, .plain value => store value values
  | _, _ => none

namespace OptionSpec

section Effects

variable {name other text : String} {short : Option Char} {store : String → α → Option α}
  {set : α → α} {values : α} {o : Occurrence}

@[simp]
theorem effect_flag : (flag name short set).effect (.flag other) values = some (set values) := rfl

@[simp]
theorem effect_value_option :
    (value name short store).effect (.option other text) values = store text values := rfl

@[simp]
theorem effect_value_plain :
    (value name short store).effect (.plain text) values = store text values := rfl

@[simp]
theorem effect_signed :
    (signed name store).effect (.option other text) values = store text values := rfl

@[simp]
theorem effect_repeated : spec.repeated.effect o values = spec.effect o values := rfl

@[simp]
theorem effect_needed : spec.needed.effect o values = spec.effect o values := rfl

@[simp]
theorem effect_within {β : Type} {get : β → α} {put : α → β → β} (o : Occurrence) (values : β) :
    (spec.within get put).effect o values =
      (spec.effect o (get values)).map fun a => put a values := by
  obtain ⟨name, short, repeatable, required, action⟩ := spec
  cases action <;> cases o <;> rfl

end Effects

end OptionSpec

/-- An option that can be told by its spellings: its long name, its letter if it has one, whether it
may be repeated and whether its value may be negative. -/
def OptionSpec.isLegible (spec : OptionSpec α) : Bool :=
  spec.name ≠ "" && '=' ∉ spec.name.toList &&
  letterNames.all (fun pair => decide (spec.name = pair.2) == decide (spec.short = some pair.1)) &&
  match spec.action with
  | .display _ => true
  | .flag _ => spec.repeatable == repeatables.contains spec.name
  | .value negative _ =>
    spec.repeatable == repeatables.contains spec.name &&
      (negative || !signedNames.contains spec.name)

structure Grammar.Legible (grammar : Grammar α) : Prop where
  options : grammar.options.all OptionSpec.isLegible = true
  nodup : (grammar.options.map (·.name)).Nodup
  positional : ∀ spec ∈ grammar.positional, spec.name = "manifest" ∧ spec.repeatable = false

/-- The occurrence is one of the option. -/
inductive Occurrence.Fits (grammar : Grammar α) : Occurrence → OptionSpec α → Prop
  | flag {name : String} {spec : OptionSpec α} {set : α → α}
    (hspec : grammar.long? name = some spec) (haction : spec.action = .flag set) :
    Fits grammar (.flag name) spec
  | option {name value : String} {spec : OptionSpec α} {negative : Bool}
    {store : String → α → Option α} (hspec : grammar.long? name = some spec)
    (haction : spec.action = .value negative store) : Fits grammar (.option name value) spec
  | plain {value : String} {spec : OptionSpec α} {negative : Bool}
    {store : String → α → Option α} (hspec : grammar.positional = some spec)
    (haction : spec.action = .value negative store) : Fits grammar (.plain value) spec

/-- The settings after an occurrence. -/
def Grammar.give (grammar : Grammar α) (settings : Settings α) :
    Occurrence → Except Halt (Settings α)
  | .flag name => (grammar.longOption name none settings).map Prod.fst
  | .option name value => (grammar.longOption name (some value) settings).map Prod.fst
  | .plain value => grammar.plain settings value

variable {grammar : Grammar α} {o : Occurrence}

namespace Grammar.Legible

variable (h : grammar.Legible)

include h

theorem isLegible {name : String} (hspec : grammar.long? name = some spec) :
    spec.name = name ∧ spec.isLegible = true := by
  obtain ⟨hmem, hname⟩ := mem_of_long? hspec
  exact ⟨hname, List.all_eq_true.mp h.options spec hmem⟩

theorem spellable {name : String} (hspec : grammar.long? name = some spec) :
    name ≠ "" ∧ '=' ∉ name.toList := by
  obtain ⟨rfl, hlegible⟩ := h.isLegible hspec
  simp only [OptionSpec.isLegible, Bool.and_eq_true, decide_eq_true_eq] at hlegible
  exact hlegible.1.1

theorem negative {name : String} {negative : Bool} {store : String → α → Option α}
    (hspec : grammar.long? name = some spec) (haction : spec.action = .value negative store)
    (hname : name ∈ signedNames) : negative = true := by
  obtain ⟨rfl, hlegible⟩ := h.isLegible hspec
  simp only [OptionSpec.isLegible, haction, Bool.and_eq_true, Bool.or_eq_true,
    Bool.not_eq_true'] at hlegible
  rcases hlegible.2.2 with hnegative | hnot
  · exact hnegative
  · rw [List.contains_iff_mem.mpr hname] at hnot
    cases hnot

theorem long?_of_mem (hspec : spec ∈ grammar.options) : grammar.long? spec.name = some spec := by
  cases hfound : grammar.long? spec.name with
  | none => exact absurd (decide_eq_true rfl) (List.find?_eq_none.mp hfound spec hspec)
  | some other =>
    obtain ⟨hother, hname⟩ := mem_of_long? hfound
    rw [List.inj_on_of_nodup_map h.nodup hother hspec hname]

/-- A letter stands for the option of its name. -/
theorem short?_eq_long? {letter : Char} {name : String} (hletter : (letter, name) ∈ letterNames) :
    grammar.short? letter = grammar.long? name := by
  refine List.find?_congr fun spec hspec => ?_
  have hlegible := List.all_eq_true.mp h.options spec hspec
  simp only [OptionSpec.isLegible, Bool.and_eq_true, List.all_eq_true, beq_iff_eq] at hlegible
  exact (hlegible.1.2 (letter, name) hletter).symm

end Grammar.Legible

namespace Occurrence.Fits

variable (hfits : o.Fits grammar spec) (h : grammar.Legible)

include hfits h

theorem name_eq : spec.name = o.name := by
  cases hfits with
  | flag hspec haction => exact (Grammar.mem_of_long? hspec).2
  | option hspec haction => exact (Grammar.mem_of_long? hspec).2
  | plain hspec haction => exact (h.positional spec hspec).1

theorem repeatable_iff : spec.repeatable = true ↔ o.name ∈ repeatables := by
  cases hfits with
  | flag hspec haction =>
    obtain ⟨rfl, hlegible⟩ := h.isLegible hspec
    simp only [OptionSpec.isLegible, haction, Bool.and_eq_true, beq_iff_eq] at hlegible
    rw [hlegible.2, List.contains_iff_mem]
    rfl
  | option hspec haction =>
    obtain ⟨rfl, hlegible⟩ := h.isLegible hspec
    simp only [OptionSpec.isLegible, haction, Bool.and_eq_true, beq_iff_eq] at hlegible
    rw [hlegible.2.1, List.contains_iff_mem]
    rfl
  | plain hspec haction =>
    rw [(h.positional spec hspec).2]
    exact iff_of_false nofun (by decide : "manifest" ∉ repeatables)

omit h in
theorem withValue (value : String) : (o.withValue value).Fits grammar spec := by
  cases hfits with
  | flag hspec haction => exact .flag hspec haction
  | option hspec haction => exact .option hspec haction
  | plain hspec haction => exact .plain hspec haction

end Occurrence.Fits

namespace Grammar

theorem give_flag {name : String} {f : α → α} (hspec : grammar.long? name = some spec)
    (haction : spec.action = .flag f) (s : Settings α) :
    grammar.give s (.flag name) = s.set spec f := by
  simp only [give, longOption, hspec, haction]
  cases s.set spec f <;> rfl

theorem give_option {name value : String} {negative : Bool} {f : String → α → Option α}
    (hspec : grammar.long? name = some spec) (haction : spec.action = .value negative f)
    (s : Settings α) : grammar.give s (.option name value) = s.store spec f value := by
  simp only [give, longOption, hspec, haction]
  cases s.store spec f value <;> rfl

theorem give_plain {value : String} {negative : Bool} {f : String → α → Option α}
    (hspec : grammar.positional = some spec) (haction : spec.action = .value negative f)
    (s : Settings α) : grammar.give s (.plain value) =
      if s.given.contains spec.name then .error (.usage (.unexpectedArgument value))
      else s.store spec f value := by
  simp only [give, plain, hspec, haction]

/-- An occurrence is refused if it repeats what may not be repeated, or if its value is. -/
theorem give_eq_ok_iff (hfits : o.Fits grammar spec) (h : grammar.Legible) :
    grammar.give s o = .ok s' ↔ (o.name ∈ s.given → o.name ∈ repeatables) ∧
      ∃ values, spec.effect o s.values = some values ∧ s' = ⟨values, o.name :: s.given⟩ := by
  have hname := hfits.name_eq h
  have hrepeatable := hfits.repeatable_iff h
  rw [← hrepeatable, ← hname]
  cases hfits with
  | flag hspec haction =>
    rw [give_flag hspec haction, Settings.set_eq_store, Settings.store_eq_ok_iff]
    simp only [OptionSpec.effect, haction]
  | option hspec haction =>
    rw [give_option hspec haction, Settings.store_eq_ok_iff]
    simp only [OptionSpec.effect, haction]
  | plain hspec haction =>
    rw [give_plain hspec haction]
    split
    · next hgiven =>
      -- the plain argument may not be repeated
      rw [List.contains_iff_mem] at hgiven
      have hnot := (h.positional spec hspec).2
      simp [hgiven, hnot]
    · rw [Settings.store_eq_ok_iff]
      simp only [OptionSpec.effect, haction]

theorem usage_of_give (hfits : o.Fits grammar spec) {halt : Halt}
    (hgive : grammar.give s o = .error halt) : ∃ error, halt = .usage error := by
  cases hfits with
  | flag hspec haction =>
    rw [give_flag hspec haction, Settings.set_eq_store] at hgive
    exact Settings.usage_of_store hgive
  | option hspec haction =>
    rw [give_option hspec haction] at hgive
    exact Settings.usage_of_store hgive
  | plain hspec haction =>
    rw [give_plain hspec haction] at hgive
    split at hgive
    · cases hgive
      exact ⟨_, rfl⟩
    · exact Settings.usage_of_store hgive

/-! ## Reading what is written -/

/-- An argument that is an option by itself. -/
theorem read_cons_done {argument : String} {result : Except Halt (Settings α)}
    (hoption : (Spelling.of argument).isOption = true)
    (hargument : grammar.argument s argument = result.map (·, none)) (rest : List String) :
    grammar.read false (argument :: rest) s = result.bind (grammar.read false rest) := by
  rw [read]
  split
  · next hspelling => simp [hspelling, Spelling.isOption] at hoption
  · next hspelling => simp [hspelling, Spelling.isOption] at hoption
  · rw [hargument]
    cases result <;> rfl

/-- An option whose value is the next argument. -/
theorem read_cons_waiting {argument value : String} (waiting : Waiting α)
    (hoption : (Spelling.of argument).isOption = true)
    (hargument : grammar.argument s argument = .ok (s, some waiting))
    (hvalue : isSeparateValue waiting.negative value = true) (rest : List String) :
    grammar.read false (argument :: value :: rest) s =
      (s.store waiting.spec waiting.store value).bind (grammar.read false rest) := by
  rw [read]
  split
  · next hspelling => simp [hspelling, Spelling.isOption] at hoption
  · next hspelling => simp [hspelling, Spelling.isOption] at hoption
  · simp only [hargument, hvalue, if_true]
    cases s.store waiting.spec waiting.store value <;> rfl

theorem letters_flag {letter : Char} {f : α → α} (hspec : grammar.short? letter = some spec)
    (haction : spec.action = .flag f) (s : Settings α) :
    grammar.letters [letter] s = (s.set spec f).map (·, none) := by
  simp only [letters, hspec, haction]
  cases s.set spec f <;> rfl

section Values

variable {letter : Char} {negative : Bool} {f : String → α → Option α}
  (hspec : grammar.short? letter = some spec) (haction : spec.action = .value negative f)

include hspec haction

theorem letters_waiting (s : Settings α) :
    grammar.letters [letter] s = .ok (s, some ⟨spec, negative, f⟩) := by
  simp only [letters, hspec, haction]

theorem letters_equals (value : String) (s : Settings α) :
    grammar.letters (letter :: ("=" ++ value).toList) s =
      (s.store spec f value).map (·, none) := by
  have hvalue : ("=" ++ value).toList = '=' :: value.toList := by simp
  simp only [hvalue, letters, hspec, haction, String.ofList_toList]

theorem letters_attached {value : String} (hempty : value ≠ "")
    (hequals : value.toList.head? ≠ some '=') (s : Settings α) :
    grammar.letters (letter :: value.toList) s = (s.store spec f value).map (·, none) := by
  simp only [letters, hspec, haction]
  split
  · next htext => exact absurd (String.toList_eq_nil_iff.mp htext) hempty
  · next htext => exact absurd (congrArg List.head? htext) hequals
  · rw [String.ofList_toList]

end Values

theorem letter_ne_dash {letter : Char} {name : String} (h : (letter, name) ∈ letterNames) :
    letter ≠ '-' :=
  (by decide : ∀ pair ∈ letterNames, pair.1 ≠ '-') (letter, name) h

/-- However an occurrence is spelled, it is given and then the reading goes on. -/
theorem read_spelled (h : grammar.Legible) (hfits : o.Fits grammar spec) {first : List String}
    (hfirst : o.Spelled first) (rest : List String) (s : Settings α) :
    grammar.read false (first ++ rest) s = (grammar.give s o).bind (grammar.read false rest) := by
  cases hfits with
  | flag hspec haction =>
    rw [give_flag hspec haction]
    obtain ⟨hne, hequals⟩ := h.spellable hspec
    cases hfirst with
    | flag name =>
      have hspelling := Spelling.of_name hne hequals
      refine read_cons_done (by rw [hspelling]; rfl) ?_ rest
      simp only [argument, hspelling, longOption, hspec, haction]
    | letterFlag hletter =>
      have hspelling := Spelling.of_letter (letter_ne_dash hletter) ""
      refine read_cons_done (by rw [hspelling]; rfl) ?_ rest
      simp only [argument, hspelling]
      exact letters_flag ((h.short?_eq_long? hletter).trans hspec) haction s
  | @option name value spec negative store hspec haction =>
    rw [give_option hspec haction]
    obtain ⟨hne, hequals⟩ := h.spellable hspec
    have hseparate (hvalue : IsSeparable name value) : isSeparateValue negative value = true :=
      isSeparateValue_of_isSeparable hvalue (h.negative hspec haction)
    cases hfirst with
    | attached name value =>
      have hspelling := Spelling.of_name_value hequals value
      refine read_cons_done (by rw [hspelling]; rfl) ?_ rest
      simp only [argument, hspelling, longOption, hspec, haction]
    | separate hvalue =>
      have hspelling := Spelling.of_name hne hequals
      refine read_cons_waiting ⟨spec, negative, store⟩ (by rw [hspelling]; rfl) ?_
        (hseparate hvalue) rest
      simp only [argument, hspelling, longOption, hspec, haction]
    | @letterEquals letter name hletter value =>
      have hspelling := Spelling.of_letter (letter_ne_dash hletter) ("=" ++ value)
      refine read_cons_done (by rw [hspelling]; rfl) ?_ rest
      simp only [argument, hspelling]
      exact letters_equals ((h.short?_eq_long? hletter).trans hspec) haction value s
    | letterAttached hletter hempty hhead =>
      have hspelling := Spelling.of_letter (letter_ne_dash hletter) value
      refine read_cons_done (by rw [hspelling]; rfl) ?_ rest
      simp only [argument, hspelling]
      exact letters_attached ((h.short?_eq_long? hletter).trans hspec) haction hempty hhead s
    | letterSeparate hletter hvalue =>
      have hspelling := Spelling.of_letter (letter_ne_dash hletter) ""
      refine read_cons_waiting ⟨spec, negative, store⟩ (by rw [hspelling]; rfl) ?_
        (hseparate hvalue) rest
      simp only [argument, hspelling]
      exact letters_waiting ((h.short?_eq_long? hletter).trans hspec) haction s
  | plain hspec haction =>
    cases hfirst with
    | plain hhead =>
      rw [List.singleton_append, read, Spelling.of_plain hhead]
      simp only [give, Bool.false_eq_true, if_false]
      cases grammar.plain s _ <;> rfl

/-- What is written is read as what its occurrences do, one after the other. -/
theorem read_written (h : grammar.Legible) {line : List Occurrence} {arguments : List String}
    (hwritten : Written line arguments) (hfits : ∀ o ∈ line, ∃ spec, o.Fits grammar spec)
    (s : Settings α) :
    grammar.read false arguments s = (line.foldlM grammar.give s).map (·, none) := by
  induction hwritten generalizing s with
  | nil => rfl
  | @cons o line first rest hfirst hrest ih =>
    obtain ⟨⟨spec, hspec⟩, hline⟩ := List.forall_mem_cons.mp hfits
    rw [read_spelled h hspec hfirst, List.foldlM_cons]
    cases grammar.give s o with
    | error halt => rfl
    | ok s' => exact ih hline s'

/-! ## Values that are read -/

/-- An occurrence of an option that adds to what is told before it just what it tells. -/
def Tells (grammar : Grammar α) (tell : List Occurrence → α) (o : Occurrence) : Prop :=
  ∃ spec, o.Fits grammar spec ∧ ∀ before, spec.effect o (tell before) = some (tell (before ++ [o]))

/-- Nothing occurs twice that may not. -/
def Unrepeated (line : List Occurrence) : Prop :=
  line.Pairwise fun o o' => o.name = o'.name → o.name ∈ repeatables

theorem foldlM_give (h : grammar.Legible) {tell : List Occurrence → α} {line : List Occurrence}
    (htells : ∀ o ∈ line, grammar.Tells tell o) (hline : Unrepeated line) :
    line.foldlM grammar.give ⟨tell [], []⟩ = .ok ⟨tell line, (line.map (·.name)).reverse⟩ := by
  induction line using List.reverseRecOn with
  | nil => rfl
  | append_singleton before o ih =>
    obtain ⟨hbefore, -, hlast⟩ := List.pairwise_append.mp hline
    obtain ⟨spec, hfits, heffect⟩ := htells o (by simp)
    have hfresh : o.name ∈ (before.map (·.name)).reverse → o.name ∈ repeatables := by
      rw [List.mem_reverse, List.mem_map]
      rintro ⟨earlier, hearlier, hname⟩
      exact hname ▸ hlast earlier hearlier o (.head _) hname
    have hgive : grammar.give ⟨tell before, (before.map (·.name)).reverse⟩ o =
        .ok ⟨tell (before ++ [o]), o.name :: (before.map (·.name)).reverse⟩ :=
      (give_eq_ok_iff hfits h).mpr ⟨hfresh, _, heffect before, rfl⟩
    rw [List.foldlM_append, ih (fun o ho => htells o (List.mem_append_left _ ho)) hbefore,
      List.map_append, List.reverse_append]
    exact (bind_pure (grammar.give _ o)).trans hgive

/-! ## Lines that are refused -/

variable {line : List Occurrence}

theorem usage_of_foldlM (hfits : ∀ o ∈ line, ∃ spec, o.Fits grammar spec)
    (hline : line.foldlM grammar.give s = .error halt) : ∃ error, halt = .usage error := by
  induction line generalizing s with
  | nil => cases hline
  | cons o line ih =>
    obtain ⟨⟨spec, hspec⟩, hrest⟩ := List.forall_mem_cons.mp hfits
    rw [List.foldlM_cons] at hline
    cases hgive : grammar.give s o with
    | error halt' =>
      rw [hgive] at hline
      cases hline
      exact usage_of_give hspec hgive
    | ok next =>
      rw [hgive] at hline
      exact ih hrest hline

/-- What is accepted is noted, and repeats nothing that may not be repeated. -/
theorem of_foldlM_eq_ok (h : grammar.Legible) (hfits : ∀ o ∈ line, ∃ spec, o.Fits grammar spec)
    (hline : line.foldlM grammar.give s = .ok s') :
    (∀ name, name ∈ s'.given ↔ name ∈ line.map (·.name) ∨ name ∈ s.given) ∧
      (∀ o ∈ line, o.name ∈ s.given → o.name ∈ repeatables) ∧ Unrepeated line := by
  induction line generalizing s with
  | nil =>
    cases hline
    exact ⟨by simp, nofun, .nil⟩
  | cons o line ih =>
    obtain ⟨⟨spec, hspec⟩, hrest⟩ := List.forall_mem_cons.mp hfits
    rw [List.foldlM_cons] at hline
    cases hgive : grammar.give s o with
    | error halt =>
      rw [hgive] at hline
      cases hline
    | ok next =>
      rw [hgive] at hline
      obtain ⟨hgiven, hfresh, hunrepeated⟩ := ih hrest hline
      obtain ⟨ho, values, -, rfl⟩ := (grammar.give_eq_ok_iff hspec h).mp hgive
      refine ⟨fun name => ?_, ?_, ?_⟩
      · rw [hgiven, List.map_cons, List.mem_cons, List.mem_cons, or_left_comm, or_assoc]
      · refine List.forall_mem_cons.mpr ⟨ho, fun later hlater hmem => ?_⟩
        exact hfresh later hlater (.tail _ hmem)
      · refine List.pairwise_cons.mpr ⟨fun later hlater hname => ?_, hunrepeated⟩
        rw [hname]
        exact hfresh later hlater (hname ▸ .head _)

theorem complete_eq_ok
    (hexclusive : ∀ pair ∈ grammar.exclusive, pair.1 ∈ s.given → pair.2 ∉ s.given)
    (hrequired : ∀ spec ∈ grammar.options ++ grammar.positional.toList,
      spec.required = true → spec.name ∈ s.given) : grammar.complete s = .ok s.values := by
  have hnone : grammar.exclusive.find? (fun pair =>
      s.given.contains pair.1 && s.given.contains pair.2) = none := by
    rw [List.find?_eq_none]
    intro pair hpair
    simpa using hexclusive pair hpair
  have hall : (grammar.options ++ grammar.positional.toList).find? (fun spec =>
      spec.required && !s.given.contains spec.name) = none := by
    rw [List.find?_eq_none]
    intro spec hspec
    simpa using hrequired spec hspec
  unfold complete
  simp only [hnone, hall]

theorem usage_of_complete {pair : String × String} (hpair : pair ∈ grammar.exclusive)
    (hfirst : pair.1 ∈ s.given) (hsecond : pair.2 ∈ s.given) :
    ∃ error, grammar.complete s = .error (.usage error) := by
  cases hfound : grammar.exclusive.find? fun pair =>
      s.given.contains pair.1 && s.given.contains pair.2 with
  | none =>
    have hnot := List.find?_eq_none.mp hfound pair hpair
    simp [hfirst, hsecond] at hnot
  | some found =>
    unfold complete
    simp only [hfound]
    exact ⟨_, rfl⟩

end Grammar

end Settings

section Commands

variable {β : Type} {grammar : Grammar (Nat × β)} {initial : β} {line : List Occurrence}
  {arguments : List String}

theorem readCommand_written (h : grammar.Legible) (hwritten : Written line arguments)
    (hfits : ∀ o ∈ line, ∃ spec, o.Fits grammar spec) :
    readCommand grammar initial arguments =
      (line.foldlM grammar.give ⟨(0, initial), []⟩).bind grammar.complete := by
  rw [readCommand, grammar.read_written h hwritten hfits]
  cases line.foldlM grammar.give ⟨(0, initial), []⟩ <;> rfl

/-- **Nothing is given twice** that may not be, wherever and with whatever value. -/
theorem usage_of_repeated (h : grammar.Legible) (hwritten : Written line arguments)
    (hfits : ∀ o ∈ line, ∃ spec, o.Fits grammar spec) (hline : ¬ Grammar.Unrepeated line) :
    ∃ error, readCommand grammar initial arguments = .error (.usage error) := by
  rw [readCommand_written h hwritten hfits]
  cases hfold : line.foldlM grammar.give ⟨(0, initial), []⟩ with
  | error halt =>
    obtain ⟨error, rfl⟩ := Grammar.usage_of_foldlM hfits hfold
    exact ⟨error, rfl⟩
  | ok s => exact absurd (Grammar.of_foldlM_eq_ok h hfits hfold).2.2 hline

/-- **Options that exclude each other** are not accepted together. -/
theorem usage_of_exclusive (h : grammar.Legible) (hwritten : Written line arguments)
    (hfits : ∀ o ∈ line, ∃ spec, o.Fits grammar spec) {pair : String × String}
    (hpair : pair ∈ grammar.exclusive) (hfirst : pair.1 ∈ line.map (·.name))
    (hsecond : pair.2 ∈ line.map (·.name)) :
    ∃ error, readCommand grammar initial arguments = .error (.usage error) := by
  rw [readCommand_written h hwritten hfits]
  cases hfold : line.foldlM grammar.give ⟨(0, initial), []⟩ with
  | error halt =>
    obtain ⟨error, rfl⟩ := Grammar.usage_of_foldlM hfits hfold
    exact ⟨error, rfl⟩
  | ok s =>
    have hgiven := (Grammar.of_foldlM_eq_ok h hfits hfold).1
    exact Grammar.usage_of_complete hpair ((hgiven _).mpr (.inl hfirst))
      ((hgiven _).mpr (.inl hsecond))

end Commands

end CycleBench.CommandLine
