import CycleBench.Proofs.Arguments
import CycleBench.Proofs.QuietCommands
import Mathlib.Logic.Relation

/-!
Command lines that ask for more to be seen: more of the log, the tracing of steps, a probe.

* `Louder.read`: such a line is refused or shown a text as without, or it is read as a command that
  is the same when quiet;
* `louder_lines_end_alike`: it ends alike, whatever the level of the log.
-/

namespace CycleBench.CommandLine

/-! ## What the options set -/

namespace Action

variable {α β : Type} {f : α → α}

/-- Options that store what they read, which has nothing to do with `f`. -/
theorem commutes_of_map {negative : Bool} {parse : String → Option β} {put : β → α → α}
    (h : ∀ b values, put b (f values) = f (put b values)) :
    (value negative fun text values => (parse text).map fun b => put b values).Commutes f := by
  intro text values
  simp only [h, Option.map_map, Function.comp_def]

end Action

namespace BenchOptions

def traced (options : BenchOptions) : BenchOptions :=
  { options with traceSteps := true }

theorem specs_commute : ∀ spec ∈ specs, spec.action.Commutes traced := by
  simp only [specs, List.forall_mem_cons]
  refine ⟨?_, ?_, ?_, ?_, ?_, nofun⟩
  · exact Action.commutes_of_map fun _ _ => rfl
  · exact Action.commutes_of_map fun _ _ => rfl
  · exact Action.commutes_of_map fun _ _ => rfl
  · exact fun _ => rfl
  · exact fun _ => rfl

end BenchOptions

section Commands

variable {β : Type} {options : List (OptionSpec β)} {positional : Option (OptionSpec β)}
  {f : β → β}

/-- The verbosity and the help of a command have nothing to do with its own options. -/
theorem commandGrammar_commutes
    (h : ∀ spec ∈ options ++ positional.toList, spec.action.Commutes f) :
    (commandGrammar options positional).Commutes (Prod.map id f) := by
  intro spec hspec
  simp only [commandGrammar, List.cons_append, List.mem_cons, List.mem_append,
    List.mem_map, Option.mem_toList] at hspec
  rcases hspec with rfl | rfl | ⟨own, hown, rfl⟩ | hspec
  · exact OptionSpec.within_commutes (fun _ => rfl) (fun _ _ => rfl) (Action.commutes_id _)
  · trivial
  · exact OptionSpec.within_commutes (fun _ => rfl) (fun _ _ => rfl)
      (h own (List.mem_append_left _ hown))
  · obtain ⟨own, hown, rfl⟩ := Option.mem_map.mp hspec
    exact OptionSpec.within_commutes (fun _ => rfl) (fun _ _ => rfl)
      (h own (List.mem_append_right _ (Option.mem_toList.mpr hown)))

/-- Options of the bench among those of a command. -/
theorem bench_specs_commute {get : β → BenchOptions} {put : BenchOptions → β → β}
    {g : BenchOptions → BenchOptions} (hget : ∀ b, get (f b) = g (get b))
    (hput : ∀ a b, put (g a) (f b) = f (put a b))
    (hbench : ∀ spec ∈ BenchOptions.specs, spec.action.Commutes g) :
    ∀ spec ∈ BenchOptions.specs.map (·.within get put), spec.action.Commutes f := by
  intro spec hspec
  obtain ⟨own, hown, rfl⟩ := List.mem_map.mp hspec
  exact OptionSpec.within_commutes hget hput (hbench own hown)

end Commands

/-- What asks a run for more to be seen: settings of its bench, and the probe. -/
def RunOptions.watched (bench : BenchOptions → BenchOptions) (probe : Bool → Bool)
    (options : RunOptions) : RunOptions :=
  { options with bench := bench options.bench, probe := probe options.probe }

theorem runGrammar_commutes {bench : BenchOptions → BenchOptions} {probe : Bool → Bool}
    (hbench : ∀ spec ∈ BenchOptions.specs, spec.action.Commutes bench)
    (hprobe : probe true = true) :
    runGrammar.Commutes (Prod.map id (RunOptions.watched bench probe)) := by
  refine commandGrammar_commutes ?_
  simp only [Option.toList_none, List.append_nil, List.forall_mem_append, List.forall_mem_cons]
  refine ⟨bench_specs_commute (fun _ => rfl) (fun _ _ => rfl) hbench, ?_, ?_, ?_, ?_, ?_, ?_, nofun⟩
  · exact Action.commutes_of_map fun _ _ => rfl
  · exact Action.commutes_of_map fun _ _ => rfl
  · exact Action.commutes_of_map fun _ _ => rfl
  · exact fun options => by simp only [RunOptions.watched, hprobe]
  · exact fun _ => rfl
  · exact fun _ _ => rfl

theorem runGrammar_hasTraceSteps :
    runGrammar.HasFlag "trace-steps" (Prod.map id (RunOptions.watched .traced id)) where
  spelling := rfl
  mem := List.mem_of_getElem? (i := 6) rfl
  nodup := by decide
  positional := nofun
  exclusive := nofun
  commutes := runGrammar_commutes BenchOptions.specs_commute rfl

theorem runGrammar_hasProbe :
    runGrammar.HasFlag "probe" (Prod.map id (RunOptions.watched id fun _ => true)) where
  spelling := rfl
  mem := List.mem_of_getElem? (i := 10) rfl
  nodup := by decide
  positional := nofun
  exclusive := nofun
  commutes := runGrammar_commutes (fun _ _ => Action.commutes_id _) rfl

def SuiteOptions.traced (options : SuiteOptions) : SuiteOptions :=
  { options with bench := options.bench.traced }

theorem suiteGrammar_hasTraceSteps :
    suiteGrammar.HasFlag "trace-steps" (Prod.map id SuiteOptions.traced) where
  spelling := rfl
  mem := List.mem_of_getElem? (i := 6) rfl
  nodup := by decide
  positional spec hspec := by
    cases hspec
    decide
  exclusive := by decide
  commutes := by
    refine (commandGrammar_commutes ?_).exclude _
    simp only [Option.toList_some, List.forall_mem_append, List.forall_mem_cons]
    refine ⟨⟨bench_specs_commute (fun _ => rfl) (fun _ _ => rfl) BenchOptions.specs_commute,
      ?_, ?_, ?_, ?_, ?_, nofun⟩, ?_, nofun⟩
    · exact fun _ _ => rfl
    · exact fun _ _ => rfl
    · exact fun _ => rfl
    · exact Action.commutes_of_map fun _ _ => rfl
    · exact fun _ => rfl
    · exact Action.commutes_of_map fun _ _ => rfl

/-! ## In front of the command -/

/-- An argument that asks for more of the log, once or several times. -/
def verboseArgument (count : Nat) : String :=
  String.ofList ('-' :: List.replicate (count + 1) 'v')

theorem topGrammar_valueless : topGrammar.Valueless := by
  simp only [Grammar.Valueless, topGrammar, List.forall_mem_cons]
  exact ⟨nofun, nofun, nofun, nofun⟩

/-- However often it was given already. -/
theorem set_verbose (s : Settings Nat) :
    s.set verboseSpec (· + 1) = .ok ⟨s.values + 1, "verbose" :: s.given⟩ := by
  simp only [Settings.set, Settings.note, verboseSpec, OptionSpec.repeated, OptionSpec.flag,
    Bool.not_true, Bool.and_false]
  rfl

/-- Before the command nothing that is read depends on the settings. -/
theorem topGrammar_respects : topGrammar.Respects (fun _ _ => True) "" := by
  have hoptions : ∀ spec ∈ topGrammar.options, spec.Respects fun _ _ => True := by
    simp only [topGrammar, List.forall_mem_cons]
    refine ⟨⟨?_, nofun⟩, ⟨nofun, nofun⟩, ⟨nofun, nofun⟩, nofun⟩
    intro f s s' haction _
    cases haction
    rw [set_verbose, set_verbose]
    exact .ok trivial
  exact {
    long := fun h => .inl (hoptions _ (Grammar.mem_of_long? h).1)
    short := fun h => hoptions _ (Grammar.mem_of_short? h).1
    positional := nofun }

theorem letters_verbose (count : Nat) (s : Settings Nat) :
    ∃ s', topGrammar.letters (List.replicate count 'v') s = .ok (s', none) := by
  induction count generalizing s with
  | zero => exact ⟨s, rfl⟩
  | succ count ih =>
    obtain ⟨s', hs'⟩ := ih ⟨s.values + 1, "verbose" :: s.given⟩
    have hshort : topGrammar.short? 'v' = some verboseSpec := rfl
    have haction : verboseSpec.action = .flag (· + 1) := rfl
    refine ⟨s', ?_⟩
    rw [List.replicate_succ, Grammar.letters]
    simp only [hshort, haction, set_verbose]
    exact hs'

theorem read_verbose (count : Nat) (rest : List String) (s : Settings Nat) :
    ∃ s', topGrammar.read true (verboseArgument count :: rest) s = topGrammar.read true rest s' := by
  have hspelling : Spelling.of (verboseArgument count) =
      .short (List.replicate (count + 1) 'v') := by
    simp [verboseArgument, Spelling.of, List.replicate_succ]
  obtain ⟨s', hs'⟩ := letters_verbose (count + 1) s
  refine ⟨s', ?_⟩
  rw [Grammar.read]
  simp only [hspelling, Grammar.argument, hs']

/-! ## Louder lines -/

/-- The arguments of a command with one more that asks for more to be seen. -/
inductive Louder.Options : String → List String → List String → Prop
  | tracedRun {before after : List String}
    (h : runGrammar.HasRoom {} "trace-steps" before after) :
    Options "run" (before ++ after) (before ++ "--trace-steps" :: after)
  | probedRun {before after : List String} (h : runGrammar.HasRoom {} "probe" before after) :
    Options "run" (before ++ after) (before ++ "--probe" :: after)
  | tracedSuite {before after : List String}
    (h : suiteGrammar.HasRoom { manifest := "" } "trace-steps" before after) :
    Options "suite" (before ++ after) (before ++ "--trace-steps" :: after)

/-- The command line with one argument more that asks for more to be seen: anywhere before the
command, or among its options. -/
inductive Louder : List String → List String → Prop
  | verbose {globals rest : List String} (count : Nat)
    (h : ∀ option ∈ globals, (Spelling.of option).isOption = true) :
    Louder (globals ++ rest) (globals ++ verboseArgument count :: rest)
  | options {globals rest rest' : List String} {name : String}
    (h : ∀ option ∈ globals, (Spelling.of option).isOption = true)
    (hrest : Louder.Options name rest rest') :
    Louder (globals ++ name :: rest) (globals ++ name :: rest')

theorem readCommand_agree {β : Type} {grammar : Grammar (Nat × β)} {flag : String} {f : β → β}
    (h : grammar.HasFlag flag (Prod.map id f)) {initial : β} {before after : List String}
    (hroom : grammar.HasRoom initial flag before after) :
    Agree (fun values values' => values' = Prod.map id f values)
      (readCommand grammar initial (before ++ after))
      (readCommand grammar initial (before ++ ("--" ++ flag) :: after)) := by
  rw [readCommand_insert h hroom]
  exact .of_map _ _

theorem Louder.Options.readNamed {name : String} {rest rest' : List String}
    (h : Louder.Options name rest rest') :
    Agree (fun read read' => read.2.quiet = read'.2.quiet)
      (readNamed name rest) (readNamed name rest') := by
  cases h with
  | tracedRun h =>
    refine (readCommand_agree runGrammar_hasTraceSteps h).bind ?_
    rintro values _ rfl
    exact .ok rfl
  | probedRun h =>
    refine (readCommand_agree runGrammar_hasProbe h).bind ?_
    rintro values _ rfl
    exact .ok rfl
  | tracedSuite h =>
    refine (readCommand_agree suiteGrammar_hasTraceSteps h).bind ?_
    rintro values _ rfl
    exact .ok rfl

theorem Louder.read {arguments louder : List String} (h : Louder arguments louder) :
    Agree (fun invocation invocation' => invocation.command.quiet = invocation'.command.quiet)
      (Invocation.read arguments) (Invocation.read louder) := by
  unfold Invocation.read
  cases h with
  | @verbose globals rest count h =>
    rw [Grammar.read_options_append topGrammar_valueless true h,
      Grammar.read_options_append topGrammar_valueless true h]
    have htop : Agree (fun result result' => result.2 = result'.2)
        ((topGrammar.read true globals { values := 0 }).bind fun result =>
          topGrammar.read true rest result.1)
        ((topGrammar.read true globals { values := 0 }).bind fun result =>
          topGrammar.read true (verboseArgument count :: rest) result.1) := by
      refine (Agree.refl _).bind ?_
      rintro result _ rfl
      obtain ⟨s, hs⟩ := read_verbose count rest result.1
      rw [hs]
      exact (topGrammar.read_agree topGrammar_respects true rest
        (dashes_notMem_beforeEscape rest) trivial).mono fun _ _ h => h.2
    refine htop.bind ?_
    rintro ⟨s, named⟩ ⟨s', _⟩ rfl
    cases named with
    | none => exact .error _
    | some named =>
      refine (Agree.refl _).bind ?_
      rintro read _ rfl
      exact .ok rfl
  | @options globals rest rest' name h hrest =>
    rw [Grammar.read_options_append topGrammar_valueless true h,
      Grammar.read_options_append topGrammar_valueless true h]
    have hname (arguments : List String) (s : Settings Nat) :
        topGrammar.read true (name :: arguments) s = .ok (s, some (name, arguments)) := by
      cases hrest <;> rfl
    cases topGrammar.read true globals { values := 0 } with
    | error halt => exact .error halt
    | ok result =>
      simp only [Except.bind, hname]
      refine hrest.readNamed.bind ?_
      rintro read read' hquiet
      exact .ok hquiet

variable {S : Type} [FileSystem S]

/-- **Louder lines end alike.** A command line and the same line asking for more to be seen are
refused for the same reason, or show the same text; or both carry out a command, and then, at
whatever level either logs, with the same exit status, the same output but for the time on the host,
and the same content in every file. -/
theorem louder_lines_end_alike {arguments louder : List String}
    (h : Relation.ReflTransGen Louder arguments louder) :
    Agree (fun invocation invocation' => ∀ (choice choice' : Option Threshold) (s : S),
        let done := (invocation.execute choice : StateM S Transcript) s
        let done' := (invocation'.execute choice' : StateM S Transcript) s
        done.1.exit = done'.1.exit ∧
        maskedLines done.1.output = maskedLines done'.1.output ∧
        (invocation.command.isTimed = false → done.1.output = done'.1.output) ∧
        done.1.notice = done'.1.notice ∧ done.2 = done'.2)
      (Invocation.read arguments) (Invocation.read louder) := by
  have hquiet : Agree (fun invocation invocation' =>
      invocation.command.quiet = invocation'.command.quiet)
      (Invocation.read arguments) (Invocation.read louder) := by
    induction h with
    | refl => exact (Agree.refl _).mono fun _ _ heq => congrArg (·.command.quiet) heq
    | tail _ hlast ih => exact ih.trans hlast.read fun _ _ _ => Eq.trans
  refine hquiet.mono fun invocation invocation' heq choice choice' s => ?_
  obtain ⟨halike, hfiles⟩ := Command.execute_alike heq
    (choice.getD (.ofVerbosity invocation.verbosity))
    (choice'.getD (.ofVerbosity invocation'.verbosity)) s
  exact ⟨halike.exit, halike.masked, halike.output, halike.notice, hfiles⟩

/-- Traced and logged at any level, a suite prints and saves what it does without. -/
theorem traced_suite_ends_alike :
    let arguments := ["suite", "m", "--max-sim-time=8", "--reset-window=2"]
    let louder := ["-vv", "suite", "--trace-steps", "m", "--max-sim-time=8", "--reset-window=2"]
    let files := FileStore.empty.put ["m"] (.file "[[[\"prompt\", null, [0, 11, 1]]]]".toUTF8)
    Relation.ReflTransGen Louder arguments louder ∧
    ∃ invocation, Invocation.read louder = .ok invocation ∧ ∀ choice : Option Threshold,
      let done := (invocation.execute choice : StateM FileStore Transcript) files
      done.1.exit = 0 ∧
      done.1.output = "prompt: PASS\n[*] 1 tests, 1 passed, 0 failed\n" ∧
      done.2.content ["result.txt"] = some "prompt: PASS\n".toUTF8 := by
  intro arguments louder files
  have hroom : suiteGrammar.HasRoom { manifest := "" } "trace-steps" [] arguments.tail :=
    ⟨nofun, fun _ h => (nomatch h), by decide⟩
  have htraced : Louder arguments louder.tail := @Louder.options [] _ _ _ nofun (.tracedSuite hroom)
  have hverbose : Louder louder.tail louder := @Louder.verbose [] _ 1 nofun
  have hlouder : Relation.ReflTransGen Louder arguments louder := .tail (.single htraced) hverbose
  have hread : Invocation.read arguments = .ok ⟨0, .suite
      { manifest := "m", bench := { maxSimTime := some 8, resetWindow := some 2 } }⟩ := by
    decide +kernel
  have halike := louder_lines_end_alike (S := FileStore) hlouder
  rw [hread] at halike
  obtain ⟨invocation, hinvocation, halike⟩ := halike.of_ok
  refine ⟨hlouder, invocation, hinvocation, fun choice => ?_⟩
  obtain ⟨hexit, -, houtput, -, hfiles⟩ := halike none choice files
  refine ⟨hexit.symm.trans (by decide +kernel), (houtput rfl).symm.trans (by decide +kernel), ?_⟩
  rw [← hfiles]
  decide +kernel

end CycleBench.CommandLine
