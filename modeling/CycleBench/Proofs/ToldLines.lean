import CycleBench.Proofs.WrittenLines

/-!
What a line of occurrences tells, as a function of the line alone: the last value of an option,
whether a flag occurs, the sections of all occurrences. The grammars of the commands read just this
from occurrences that they accept:

* `RunOptions.ofLine`, `trapOf`, `SuiteOptions.ofLine`: what is told, option by option;
* `RunOptions.Accepts`, `AcceptsTrap`, `SuiteOptions.Accepts`: occurrences that are accepted;
* `RunOptions.Accepts.tells`, `AcceptsTrap.tells`, `SuiteOptions.Accepts.tells`: such an occurrence
  adds to what is told before it what it tells itself.
-/

namespace CycleBench.CommandLine

/-! ## What a line tells -/

/-- The occurrences of a name on a line. -/
def given (name : String) (line : List Occurrence) : List Occurrence :=
  line.filter (·.name = name)

def occurs (name : String) (line : List Occurrence) : Bool :=
  !(given name line).isEmpty

/-- The value of the last occurrence of a name. -/
def lastValue (name : String) (line : List Occurrence) : Option String :=
  (given name line).getLast?.map (·.value)

/-- The selection by the last occurrence of a group or of a single case. -/
def selectionOf (line : List Occurrence) : Selection :=
  match (line.filter fun o => o.name = "group" ∨ o.name = "single").getLast? with
  | none => .all
  | some o => if o.name = "group" then .group o.value else .single o.value

theorem mem_given {name : String} {line : List Occurrence} {o : Occurrence} :
    o ∈ given name line ↔ o ∈ line ∧ o.name = name := by
  simp [given]

section Concat

variable (name : String) (before : List Occurrence) (o : Occurrence)

@[simp]
theorem given_nil : given name [] = [] := rfl

@[simp]
theorem given_cons (line : List Occurrence) :
    given name (o :: line) = (if o.name = name then [o] else []) ++ given name line := by
  by_cases h : o.name = name <;> simp [given, h]

@[simp]
theorem given_append (after : List Occurrence) :
    given name (before ++ after) = given name before ++ given name after :=
  List.filter_append ..

@[simp]
theorem occurs_concat :
    occurs name (before ++ [o]) = (occurs name before || o.name = name) := by
  by_cases h : o.name = name <;> simp [occurs, h]

@[simp]
theorem lastValue_concat :
    lastValue name (before ++ [o]) =
      if o.name = name then some o.value else lastValue name before := by
  by_cases h : o.name = name <;> simp [lastValue, h]

@[simp]
theorem selectionOf_concat :
    selectionOf (before ++ [o]) = if o.name = "group" then .group o.value
      else if o.name = "single" then .single o.value else selectionOf before := by
  by_cases hgroup : o.name = "group"
  · simp [selectionOf, hgroup]
  · by_cases hsingle : o.name = "single" <;> simp [selectionOf, hgroup, hsingle]

end Concat

def BenchOptions.ofLine (line : List Occurrence) : BenchOptions where
  config := lastValue "config" line
  maxSimTime := (lastValue "max-sim-time" line).bind Text.natural64?
  resetWindow := (lastValue "reset-window" line).bind Text.natural64?
  activeLow := occurs "active-low" line
  traceSteps := occurs "trace-steps" line

def RunOptions.ofLine (line : List Occurrence) : RunOptions where
  bench := .ofLine line
  program := {
    resultCode := ((lastValue "result" line).bind Text.signedByte?).getD 0
    causeCode := ((lastValue "cause" line).bind Text.signedByte?).getD 11
    latency := ((lastValue "latency" line).bind Text.natural64?).getD 1000 }
  probe := occurs "probe" line
  stats := occurs "stats" line
  sections := (given "stats-sections" line).flatMap fun o => Text.split ',' o.value

def trapOf (line : List Occurrence) : TrapRecord where
  resultCode := ((lastValue "result" line).bind Text.signedByte?).getD 0
  causeCode := ((lastValue "cause" line).bind Text.signedByte?).getD 0

def SuiteOptions.ofLine (line : List Occurrence) : SuiteOptions where
  manifest := (lastValue "manifest" line).getD ""
  bench := .ofLine line
  selection := selectionOf line
  list := occurs "list" line
  out := ((lastValue "out" line).bind path?).getD "result.txt"
  append := occurs "append" line

/-- How often more of the log is asked for, and what else is told. -/
def withVerbosity {α : Type} (tell : List Occurrence → α) (line : List Occurrence) : Nat × α :=
  ((given "verbose" line).length, tell line)

/-! ## Occurrences that are accepted -/

inductive BenchOptions.Accepts : Occurrence → Prop
  | config {path : String} (h : path ≠ "") : Accepts (.option "config" path)
  | maxSimTime {text : String} {n : Nat} (h : Text.natural64? text = some n) :
    Accepts (.option "max-sim-time" text)
  | resetWindow {text : String} {n : Nat} (h : Text.natural64? text = some n) :
    Accepts (.option "reset-window" text)
  | activeLow : Accepts (.flag "active-low")
  | traceSteps : Accepts (.flag "trace-steps")

inductive RunOptions.Accepts : Occurrence → Prop
  | verbose : Accepts (.flag "verbose")
  | bench {o : Occurrence} (h : BenchOptions.Accepts o) : Accepts o
  | result {text : String} {n : Int8} (h : Text.signedByte? text = some n) :
    Accepts (.option "result" text)
  | cause {text : String} {n : Int8} (h : Text.signedByte? text = some n) :
    Accepts (.option "cause" text)
  | latency {text : String} {n : Nat} (h : Text.natural64? text = some n) :
    Accepts (.option "latency" text)
  | probe : Accepts (.flag "probe")
  | stats : Accepts (.flag "stats")
  | sections (text : String) : Accepts (.option "stats-sections" text)

/-- Occurrences on the line of a classification. -/
inductive AcceptsTrap : Occurrence → Prop
  | verbose : AcceptsTrap (.flag "verbose")
  | result {text : String} {n : Int8} (h : Text.signedByte? text = some n) :
    AcceptsTrap (.option "result" text)
  | cause {text : String} {n : Int8} (h : Text.signedByte? text = some n) :
    AcceptsTrap (.option "cause" text)

inductive SuiteOptions.Accepts : Occurrence → Prop
  | verbose : Accepts (.flag "verbose")
  | manifest {path : String} (h : path ≠ "") : Accepts (.plain path)
  | bench {o : Occurrence} (h : BenchOptions.Accepts o) : Accepts o
  | group (name : String) : Accepts (.option "group" name)
  | single (name : String) : Accepts (.option "single" name)
  | list : Accepts (.flag "list")
  | out {path : String} (h : path ≠ "") : Accepts (.option "out" path)
  | append : Accepts (.flag "append")

/-! ## Tables of options -/

section Tables

variable {α β : Type} {specs : List (OptionSpec α)} {tell : List Occurrence → α} {o : Occurrence}

/-- Among the options is the one that occurs, and it adds to what is told before it just what it
tells. -/
def Told (specs : List (OptionSpec α)) (tell : List Occurrence → α) (o : Occurrence) : Prop :=
  ∃ spec ∈ specs, spec.name = o.name ∧
    ∀ before, spec.effect o (tell before) = some (tell (before ++ [o]))

theorem told_at (i : Nat) {spec : OptionSpec α} (hspec : specs[i]? = some spec)
    (hname : spec.name = o.name)
    (h : ∀ before, spec.effect o (tell before) = some (tell (before ++ [o]))) : Told specs tell o :=
  ⟨spec, List.mem_of_getElem? hspec, hname, h⟩

theorem Told.mono {specs' : List (OptionSpec α)} (h : Told specs tell o) (hspecs : specs ⊆ specs') :
    Told specs' tell o := by
  obtain ⟨spec, hspec, htold⟩ := h
  exact ⟨spec, hspecs hspec, htold⟩

/-- Options for a part of what is told. -/
theorem Told.within (h : Told specs tell o) (tell' : List Occurrence → β) {get : β → α}
    {put : α → β → β} (hget : ∀ before, get (tell' before) = tell before)
    (hput : ∀ before, put (tell (before ++ [o])) (tell' before) = tell' (before ++ [o])) :
    Told (specs.map (·.within get put)) tell' o := by
  obtain ⟨spec, hspec, hname, heffect⟩ := h
  refine ⟨spec.within get put, List.mem_map_of_mem hspec, hname, fun before => ?_⟩
  rw [OptionSpec.effect_within, hget, heffect, Option.map_some, hput]

theorem Told.command (h : Told specs tell o) (hname : o.name ≠ "verbose")
    (positional : Option (OptionSpec α)) :
    Told (commandGrammar specs positional).options (withVerbosity tell) o := by
  refine Told.mono (h.within (withVerbosity tell) (fun _ => rfl) fun before => ?_)
    fun _ hspec => .tail _ (.tail _ hspec)
  simp [withVerbosity, hname]

theorem told_verbose (specs : List (OptionSpec α)) (positional : Option (OptionSpec α))
    (h : ∀ before, tell (before ++ [.flag "verbose"]) = tell before) :
    Told (commandGrammar specs positional).options (withVerbosity tell) (.flag "verbose") := by
  refine ⟨_, .head _, rfl, fun before => ?_⟩
  simp [verboseSpec, withVerbosity, h]

theorem Told.tells {grammar : Grammar α} (h : Told grammar.options tell o)
    (hgrammar : grammar.Legible) (hplain : ∀ value, o ≠ .plain value) : grammar.Tells tell o := by
  obtain ⟨spec, hspec, hname, heffect⟩ := h
  have hlong := hgrammar.long?_of_mem hspec
  rw [hname] at hlong
  refine ⟨spec, ?_, heffect⟩
  -- the option and its occurrence are of the same kind, or there were no effect
  have hkind := heffect []
  unfold OptionSpec.effect at hkind
  split at hkind
  · next haction => exact .flag hlong haction
  · next haction => exact .option hlong haction
  · exact absurd rfl (hplain _)
  · cases hkind

end Tables

theorem BenchOptions.Accepts.told {o : Occurrence} (h : Accepts o) : Told specs ofLine o := by
  cases h with
  | config h =>
    refine told_at 0 rfl rfl fun before => ?_
    simp [ofLine, path?, h]
  | maxSimTime h =>
    refine told_at 1 rfl rfl fun before => ?_
    simp [ofLine, h]
  | resetWindow h =>
    refine told_at 2 rfl rfl fun before => ?_
    simp [ofLine, h]
  | activeLow =>
    refine told_at 3 rfl rfl fun before => ?_
    simp [ofLine]
  | traceSteps =>
    refine told_at 4 rfl rfl fun before => ?_
    simp [ofLine]

/-- Options of the bench among those of a command. -/
theorem BenchOptions.Accepts.told_command {β : Type} {o : Occurrence} (h : Accepts o)
    (tell : List Occurrence → β) {get : β → BenchOptions} {put : BenchOptions → β → β}
    (hget : ∀ before, get (tell before) = ofLine before)
    (hput : ∀ before, put (ofLine (before ++ [o])) (tell before) = tell (before ++ [o]))
    (more : List (OptionSpec β)) (positional : Option (OptionSpec β)) :
    Told (commandGrammar (specs.map (·.within get put) ++ more) positional).options
      (withVerbosity tell) o := by
  have hname : o.name ≠ "verbose" := by cases h <;> simp
  exact ((h.told.within tell hget hput).mono (List.subset_append_left _ _)).command hname positional

theorem RunOptions.Accepts.told {o : Occurrence} (h : Accepts o) :
    Told runGrammar.options (withVerbosity ofLine) o := by
  cases h with
  | verbose => exact told_verbose _ none fun before => by simp [ofLine, BenchOptions.ofLine]
  | bench h =>
    exact h.told_command ofLine (fun _ => rfl) (fun _ => by cases h <;> simp [ofLine]) _ none
  | result h =>
    refine Told.command (told_at 5 rfl rfl fun before => ?_) (by simp) none
    simp [ofLine, BenchOptions.ofLine, h]
  | cause h =>
    refine Told.command (told_at 6 rfl rfl fun before => ?_) (by simp) none
    simp [ofLine, BenchOptions.ofLine, h]
  | latency h =>
    refine Told.command (told_at 7 rfl rfl fun before => ?_) (by simp) none
    simp [ofLine, BenchOptions.ofLine, h]
  | probe =>
    refine Told.command (told_at 8 rfl rfl fun before => ?_) (by simp) none
    simp [ofLine, BenchOptions.ofLine]
  | stats =>
    refine Told.command (told_at 9 rfl rfl fun before => ?_) (by simp) none
    simp [ofLine, BenchOptions.ofLine]
  | sections text =>
    refine Told.command (told_at 10 rfl rfl fun before => ?_) (by simp) none
    simp [ofLine, BenchOptions.ofLine]

theorem AcceptsTrap.told {o : Occurrence} (h : AcceptsTrap o) :
    Told classifyGrammar.options (withVerbosity trapOf) o := by
  cases h with
  | verbose => exact told_verbose _ none fun before => by simp [trapOf]
  | result h =>
    refine Told.command (told_at 0 rfl rfl fun before => ?_) (by simp) none
    simp [trapOf, h]
  | cause h =>
    refine Told.command (told_at 1 rfl rfl fun before => ?_) (by simp) none
    simp [trapOf, h]

theorem runGrammar_legible : runGrammar.Legible where
  options := by decide
  nodup := by decide
  positional := nofun

theorem classifyGrammar_legible : classifyGrammar.Legible where
  options := by decide
  nodup := by decide
  positional := nofun

theorem suiteGrammar_legible : suiteGrammar.Legible where
  options := by decide
  nodup := by decide
  positional spec hspec := by
    cases hspec
    decide

theorem RunOptions.Accepts.tells {o : Occurrence} (h : Accepts o) :
    runGrammar.Tells (withVerbosity ofLine) o :=
  h.told.tells runGrammar_legible fun value hplain => by
    subst hplain
    cases h with
    | bench h => cases h

theorem AcceptsTrap.tells {o : Occurrence} (h : AcceptsTrap o) :
    classifyGrammar.Tells (withVerbosity trapOf) o :=
  h.told.tells classifyGrammar_legible fun value hplain => by
    subst hplain
    cases h

/-- All but the manifest. -/
theorem SuiteOptions.Accepts.told {o : Occurrence} (h : Accepts o)
    (hplain : ∀ value, o ≠ .plain value) :
    Told suiteGrammar.options (withVerbosity ofLine) o := by
  cases h with
  | verbose => exact told_verbose _ none fun before => by simp [ofLine, BenchOptions.ofLine]
  | manifest => exact absurd rfl (hplain _)
  | bench h =>
    exact h.told_command ofLine (fun _ => rfl) (fun _ => by cases h <;> simp [ofLine]) _ none
  | group name =>
    refine Told.command (told_at 5 rfl rfl fun before => ?_) (by simp) none
    simp [ofLine, BenchOptions.ofLine]
  | single name =>
    refine Told.command (told_at 6 rfl rfl fun before => ?_) (by simp) none
    simp [ofLine, BenchOptions.ofLine]
  | list =>
    refine Told.command (told_at 7 rfl rfl fun before => ?_) (by simp) none
    simp [ofLine, BenchOptions.ofLine]
  | out h =>
    refine Told.command (told_at 8 rfl rfl fun before => ?_) (by simp) none
    simp [ofLine, BenchOptions.ofLine, path?, h]
  | append =>
    refine Told.command (told_at 9 rfl rfl fun before => ?_) (by simp) none
    simp [ofLine, BenchOptions.ofLine]

theorem SuiteOptions.Accepts.tells {o : Occurrence} (h : Accepts o) :
    suiteGrammar.Tells (withVerbosity ofLine) o := by
  cases o with
  | flag => exact (h.told nofun).tells suiteGrammar_legible nofun
  | option => exact (h.told nofun).tells suiteGrammar_legible nofun
  | plain path =>
    have hpath : path ≠ "" := by
      cases h with
      | manifest h => exact h
      | bench h => cases h
    refine ⟨_, .plain rfl rfl, fun before => ?_⟩
    simp [withVerbosity, ofLine, BenchOptions.ofLine, path?, hpath]

end CycleBench.CommandLine
