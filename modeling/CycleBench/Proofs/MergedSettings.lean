import CycleBench.Proofs.Matching
import CycleBench.Proofs.QuietCommands

/-!
Settings that come from a file and settings that are given. A command asks for its bench and for
nothing else that is set, so it does not matter in which way the settings came:

* `BenchOptions.settle_merged`: given settings ask for the same bench as a file that holds the
  merged ones;
* `Command.execute_matches`: two commands that match end alike;
* `flags_and_file_interchangeable`: so given settings may as well be written to the file, and only
  merged ones are checked.
-/

namespace CycleBench.CommandLine

/-! ## Benches -/

namespace BenchOptions

/-- The configuration in a file, as it stands there. -/
def ofFile (path : String) : BenchOptions :=
  { config := some path }

theorem override_ofFile (path : String) (config : Config) :
    (ofFile path).override config = config := by
  simp [ofFile, override]

variable {S : Type} [FileSystem S] {flags : BenchOptions} {s s' : S} {config : Config}
  {path : String}

theorem settle_merged (hflags : flags.Configured s config)
    (hmerged : Loaded Config.ofJson s' path (flags.override config)) :
    flags.settle s = (ofFile path).settle s' := by
  rw [settle_of_configured hflags, settle_of_configured (.file rfl hmerged), override_ofFile]

/-- Only the merged settings are checked. -/
theorem exists_settled_iff (h : flags.Configured s config) :
    (∃ bench, flags.Settled s bench) ↔
      (flags.override config).maxSimTime ≠ 0 ∧ (flags.override config).reset.window ≠ 0 := by
  constructor
  · rintro ⟨bench, hbench⟩
    have hsettle := settle_eq_ok_iff.mpr hbench
    rw [settle_of_configured h, Testbench.ofConfig_eq_ok_iff] at hsettle
    rw [← hsettle]
    exact ⟨Nat.ne_of_gt bench.maxSimTime_pos, Nat.ne_of_gt bench.window_pos⟩
  · rintro ⟨hbound, hwindow⟩
    let bench : Testbench :=
      ⟨flags.override config, Nat.pos_of_ne_zero hbound, Nat.pos_of_ne_zero hwindow⟩
    exact ⟨bench, config, h, rfl⟩

theorem testbench_matches {P : S → S → Prop} {flags flags' : BenchOptions}
    (h : ∀ s s', P s s' → flags.settle s = flags'.settle s') :
    Work.Matches P P Eq (flags.testbench : Work (StateM S) Testbench) flags'.testbench :=
  .of_steady (fun log _ => on_testbench log) (fun log _ => on_testbench log)
    fun s s' hP => h s s' hP ▸ .refl _

end BenchOptions

/-! ## Commands -/

section Run

variable {S : Type} [FileSystem S]

/-- A run depends on its settings through its bench only. -/
theorem RunOptions.perform_matches {P : S → S → Prop} (options : RunOptions)
    {settings : BenchOptions}
    (h : ∀ s s', P s s' → options.bench.settle s = settings.settle s') :
    Work.Matches P P (Reply.Alike options.wantsStats) (options.perform : Work (StateM S) Reply)
      { options with bench := settings }.perform := by
  have hP : ∀ s s', P s s' → P s s' := fun _ _ hP => hP
  have hcheck : Work.Matches P P Eq
      (Work.ofExcept (StatsSection.check options.sections) : Work (StateM S) Unit)
      (Work.ofExcept (StatsSection.check options.sections)) :=
    .of_steady (fun _ _ => Work.on_ofExcept _) (fun _ _ => Work.on_ofExcept _) fun _ _ _ => .refl _
  unfold perform
  refine hcheck.bind hP fun _ _ _ => ?_
  refine (BenchOptions.testbench_matches h).bind hP ?_
  rintro bench _ rfl
  refine Work.Matches.get.bind hP ?_
  rintro log _ rfl
  refine (Work.Matches.timed fun _ => options.drive bench log).bind hP ?_
  rintro ⟨⟨outcome, later⟩, elapsed⟩ ⟨_, elapsed'⟩ rfl
  refine (Work.Matches.set later).bind hP fun _ _ _ => .pure ?_
  exact options.reply_alike outcome elapsed elapsed'

/-- Commands that match end alike. -/
theorem Command.execute_matches {P Q : S → S → Prop} (command command' : Command) {timed : Bool}
    (h : Work.Matches P Q (Reply.Alike timed) (command.perform : Work (StateM S) Reply)
      command'.perform) (threshold : Threshold) {s s' : S} (hP : P s s') :
    let done := (command.execute threshold : StateM S Transcript) s
    let done' := (command'.execute threshold : StateM S Transcript) s'
    Transcript.Alike timed done.1 done'.1 ∧ done.1.log = done'.1.log ∧ Q done.2 done'.2 := by
  obtain ⟨hresult, hlog, hfiles⟩ := h { threshold } s s' hP
  rcases hwork : (command.perform : Work (StateM S) Reply).on { threshold } s
    with ⟨⟨result, log⟩, s₁⟩
  rcases hwork' : (command'.perform : Work (StateM S) Reply).on { threshold } s'
    with ⟨⟨result', log'⟩, s₁'⟩
  rw [hwork, hwork'] at hresult hlog hfiles
  simp only at hresult hlog hfiles
  cases hresult with
  | error failure =>
    rw [execute_of_error command hwork, execute_of_error command' hwork']
    exact ⟨⟨rfl, rfl, rfl, fun _ => rfl⟩, hlog, hfiles⟩
  | ok halike =>
    rw [execute_of_ok command hwork, execute_of_ok command' hwork', halike.passed]
    exact ⟨⟨rfl, halike.notice, halike.masked, halike.output⟩, hlog, hfiles⟩

end Run

section Suite

variable {S : Type} [StablePaths S] {P : S → S → Prop} {files : Set (FileSystem.File S)}

omit [StablePaths S] in
theorem SuiteOptions.tests_matches (options : SuiteOptions) (manifest : Manifest) :
    Work.Matches P P Eq (options.tests manifest : Work (StateM S) (List SuiteCase))
      (options.tests manifest) := by
  unfold tests
  refine (Work.Matches.emit _).bind (fun _ _ hP => hP) fun _ _ _ => ?_
  split
  · exact .throw _
  · exact .pure rfl

/-- Two states of the files that are the same to a suite but for its settings: what certain files
hold may differ, and neither is the manifest one of them nor the report file. -/
structure SuiteOptions.Apart (options : SuiteOptions) (files : Set (FileSystem.File S))
    (s s' : S) : Prop where
  content : SameOutside files s s'
  source : StablePaths.source s options.manifest = StablePaths.source s' options.manifest
  source_ne : ∀ file ∈ files, StablePaths.source s options.manifest ≠ .ok file
  target : FileSystem.target options.append s options.out =
    FileSystem.target options.append s' options.out
  target_ne : ∀ file ∈ files, FileSystem.target options.append s options.out ≠ .ok file

/-- The same bench leaves the same report in the same file. -/
theorem SuiteOptions.runAndSave_matches (options : SuiteOptions) (bench : Testbench)
    (hapart : ∀ s s', P s s' → options.Apart files s s') (tests : List SuiteCase) :
    Work.Matches P (SameOutside files) Eq
      (bench.runAndSave options.append options.out tests : Work (StateM S) SuiteReport)
      (bench.runAndSave options.append options.out tests) := by
  have hcontent : ∀ s s', P s s' → SameOutside files s s' := fun s s' hP => (hapart s s' hP).content
  unfold Testbench.runAndSave
  refine Work.Matches.get.bind hcontent ?_
  rintro log _ rfl
  refine (Work.Matches.set _).bind hcontent fun _ _ _ => ?_
  have hsave := Work.Matches.saveTo (bench.runSuite tests log).1 hcontent
    (fun s s' hP => (hapart s s' hP).target) fun s s' hP => (hapart s s' hP).target_ne
  exact hsave.bind (fun _ _ h => h) fun _ _ _ => .pure rfl

/-- What a suite does with its cases depends on the settings through the bench only. -/
theorem SuiteOptions.runTests_matches (options : SuiteOptions) {settings : BenchOptions}
    (hapart : ∀ s s', P s s' → options.Apart files s s')
    (hbench : ∀ s s', P s s' → options.bench.settle s = settings.settle s')
    (tests : List SuiteCase) :
    Work.Matches P (SameOutside files) (Reply.Alike false)
      (options.runTests tests : Work (StateM S) Reply)
      ({ options with bench := settings }.runTests tests) := by
  have hcontent : ∀ s s', P s s' → SameOutside files s s' := fun s s' hP => (hapart s s' hP).content
  unfold runTests
  split
  · exact (Work.Matches.pure (.refl false _)).weaken hcontent
  · refine (BenchOptions.testbench_matches hbench).bind hcontent ?_
    rintro bench _ rfl
    refine (options.runAndSave_matches bench hapart tests).bind (fun _ _ h => h) ?_
    rintro report _ rfl
    exact .pure (.refl false _)

/-- A suite depends on its settings through its bench only. -/
theorem SuiteOptions.perform_matches (options : SuiteOptions) {settings : BenchOptions}
    (hapart : ∀ s s', P s s' → options.Apart files s s')
    (hbench : ∀ s s', P s s' → options.bench.settle s = settings.settle s') :
    Work.Matches P (SameOutside files) (Reply.Alike false)
      (options.perform : Work (StateM S) Reply) { options with bench := settings }.perform := by
  have hcontent : ∀ s s', P s s' → SameOutside files s s' := fun s s' hP => (hapart s s' hP).content
  have hfile : Work.Matches P P Eq (Manifest.ofFile options.manifest : Work (StateM S) Manifest)
      (Manifest.ofFile options.manifest) := by
    refine .of_steady (fun _ _ => Work.on_manifestFile _) (fun _ _ => Work.on_manifestFile _)
      fun s s' hP => ?_
    have hfiles := hapart s s' hP
    rw [hfiles.content.load_eq hfiles.source hfiles.source_ne]
    exact .refl _
  unfold perform
  refine hfile.bind hcontent ?_
  rintro manifest _ rfl
  split
  · exact (Work.Matches.pure (.refl false _)).weaken hcontent
  · refine (options.tests_matches manifest).bind hcontent ?_
    rintro tests _ rfl
    exact options.runTests_matches hapart hbench tests

end Suite

/-! ## Settings given and settings in a file -/

/-- A run whose sections are known is refused exactly for merged bounds that are zero. -/
theorem RunOptions.exit_eq_two_iff {S : Type} [FileSystem S] {options : RunOptions} {s : S}
    {config : Config} (threshold : Threshold)
    (hsections : ∀ name ∈ options.sections, name = "summary" ∨ name = "reset")
    (h : options.bench.Configured s config) :
    (((Command.run options).execute threshold : StateM S Transcript) s).1.exit = 2 ↔
      (options.bench.override config).maxSimTime = 0 ∨
        (options.bench.override config).reset.window = 0 := by
  have hbounds := BenchOptions.exists_settled_iff h
  cases hsettle : options.bench.settle s with
  | error failure =>
    have hrefused : options.Refused s failure :=
      .bench hsections (BenchOptions.settle_eq_error_iff.mp hsettle)
    have hnone : ¬ ∃ bench, options.bench.Settled s bench := by
      rintro ⟨bench, hbench⟩
      rw [BenchOptions.settle_eq_ok_iff.mpr hbench] at hsettle
      cases hsettle
    rw [RunOptions.execute_of_refused threshold hrefused]
    rw [hbounds, ne_eq, ne_eq, ← not_or, not_not] at hnone
    exact ⟨fun _ => hnone, fun _ => rfl⟩
  | ok bench =>
    have hsettled := BenchOptions.settle_eq_ok_iff.mp hsettle
    obtain ⟨elapsed, log, hexecute⟩ := execute_of_settled threshold options hsections hsettled
    obtain ⟨hbound, hwindow⟩ := hbounds.mp ⟨bench, hsettled⟩
    rw [hexecute]
    have hnonzero : ¬ ((options.bench.override config).maxSimTime = 0 ∨
        (options.bench.override config).reset.window = 0) := not_or.mpr ⟨hbound, hwindow⟩
    exact iff_of_false exit_ne_two hnonzero

/-- **Given settings may as well be in a file.** Let a file hold a configuration with the given
settings in place of its own. Then a run and a suite that name this file and are given none of the
settings end, print, log and report errors as before. For a run the other files may be any. For a
suite they are the same but for some, none of which is its manifest or its report file, and it
leaves the same in every other file. It is the merged settings that are checked and nothing else, so
a bound of zero in a file may be replaced, and may not replace another. -/
theorem flags_and_file_interchangeable {S : Type} [StablePaths S] {s s' : S}
    {flags : BenchOptions} {config merged : Config} {path : String}
    (hflags : flags.Configured s config)
    (hmerged : merged = {
      maxSimTime := flags.maxSimTime.getD config.maxSimTime
      reset := {
        window := flags.resetWindow.getD config.reset.window
        polarity := if flags.activeLow then .activeLow else config.reset.polarity }
      signals := config.signals
      traceSteps := config.traceSteps || flags.traceSteps })
    (hpath : Loaded Config.ofJson s' path merged) :
    (∀ (options : RunOptions) (verbosity : Nat) (choice : Option Threshold),
      options.bench = flags →
      let named := { options with bench := { config := some path } }
      let done := ((Invocation.mk verbosity (.run options)).execute choice :
        StateM S Transcript) s
      let done' := ((Invocation.mk verbosity (.run named)).execute choice :
        StateM S Transcript) s'
      done.1.exit = done'.1.exit ∧
      maskedLines done.1.output = maskedLines done'.1.output ∧
      (options.stats = false ∧ options.sections = [] → done.1.output = done'.1.output) ∧
      done.1.log = done'.1.log ∧ done.1.errors = done'.1.errors ∧ done.2 = s ∧ done'.2 = s' ∧
      ((∀ name ∈ options.sections, name = "summary" ∨ name = "reset") →
        (done.1.exit = 2 ↔ merged.maxSimTime = 0 ∨ merged.reset.window = 0))) ∧
    (∀ (options : SuiteOptions) (files : Set (FileSystem.File S)) (verbosity : Nat)
      (choice : Option Threshold),
      options.bench = flags → options.Apart files s s' →
      let named := { options with bench := { config := some path } }
      let done := ((Invocation.mk verbosity (.suite options)).execute choice :
        StateM S Transcript) s
      let done' := ((Invocation.mk verbosity (.suite named)).execute choice :
        StateM S Transcript) s'
      done.1.exit = done'.1.exit ∧ done.1.output = done'.1.output ∧
      done.1.log = done'.1.log ∧ done.1.errors = done'.1.errors ∧
      ∀ other, other ∉ files →
        FileSystem.content done.2 other = FileSystem.content done'.2 other) ∧
    ∀ log : Log,
      let bench := ((flags.testbench : Work (StateM S) Testbench).on log s).1.1
      (bench = .error (Config.boundFailure "max_sim_time") ↔ merged.maxSimTime = 0) ∧
      (bench = .error (Config.boundFailure "reset.window") ↔
        merged.maxSimTime ≠ 0 ∧ merged.reset.window = 0) ∧
      (merged.maxSimTime ≠ 0 ∧ merged.reset.window ≠ 0 →
        ∃ settled, bench = .ok settled ∧ settled.config = merged) := by
  obtain rfl : merged = flags.override config := hmerged
  let here : S → S → Prop := fun t t' => t = s ∧ t' = s'
  have hsettle : ∀ t t', here t t' →
      flags.settle t = BenchOptions.settle { config := some path } t' := by
    rintro _ _ ⟨rfl, rfl⟩
    exact BenchOptions.settle_merged hflags hpath
  refine ⟨?_, ?_, ?_⟩
  · rintro options verbosity choice rfl named done done'
    have hmatches := options.perform_matches hsettle
    obtain ⟨halike, hlog, hfiles, hfiles'⟩ := Command.execute_matches (.run options) (.run named)
      hmatches (choice.getD (.ofVerbosity verbosity)) ⟨rfl, rfl⟩
    refine ⟨halike.exit, halike.masked, ?_, hlog, ?_, hfiles, hfiles', fun hsections =>
      RunOptions.exit_eq_two_iff _ hsections hflags⟩
    · rintro ⟨hstats, hsections⟩
      exact halike.output (by simp [RunOptions.wantsStats, hstats, hsections])
    · exact congrArg₂ (fun log notice => log.text ++ notice) hlog halike.notice
  · rintro options files verbosity choice rfl hapart named done done'
    have halike : ∀ t t', here t t' → options.Apart files t t' := by
      rintro _ _ ⟨rfl, rfl⟩
      exact hapart
    have hmatches := options.perform_matches halike hsettle
    obtain ⟨halike, hlog, hfiles⟩ := Command.execute_matches (.suite options) (.suite named)
      hmatches (choice.getD (.ofVerbosity verbosity)) ⟨rfl, rfl⟩
    refine ⟨halike.exit, halike.output rfl, hlog, ?_, hfiles⟩
    exact congrArg₂ (fun log notice => log.text ++ notice) hlog halike.notice
  · intro log bench
    have hbench : bench = Testbench.ofConfig (flags.override config) := by
      rw [← BenchOptions.settle_of_configured hflags]
      exact congrArg (·.1.1) (BenchOptions.on_testbench (S := S) log)
    rw [hbench, Testbench.ofConfig_eq_error_iff, Testbench.ofConfig_eq_error_iff,
      Config.validate_eq_error_iff, Config.validate_eq_error_iff]
    refine ⟨by simp [Config.boundFailure], by simp [Config.boundFailure], ?_⟩
    rintro ⟨hbound, hwindow⟩
    exact ⟨⟨_, Nat.pos_of_ne_zero hbound, Nat.pos_of_ne_zero hwindow⟩,
      Testbench.ofConfig_eq_ok_iff.mpr rfl, rfl⟩

/-- A bound of zero in a file is replaced, as if it stood in no file; the file with the merged
settings is there for the second suite only. -/
theorem zero_bound_replaced :
    let manifest := "[[[\"a\", \"x\", [0, 11, 1]], [\"b\", null, [1, 3, 1]]]]"
    let s := (FileStore.empty.put ["m"] (.file manifest.toUTF8)).put ["c"]
      (.file "\x7b\"max_sim_time\": 0, \"reset\": [2]\x7d".toUTF8)
    let s' := s.put ["d"]
      (.file "\x7b\"reset\": [2, \"active_low\"], \"max_sim_time\": 8\x7d".toUTF8)
    let suite := fun settings => Command.suite { manifest := "m", bench := settings }
    let given := ((Invocation.mk 0 (suite
      { config := some "c", maxSimTime := some 8, activeLow := true })).execute none :
      StateM FileStore Transcript) s
    let named := ((Invocation.mk 0 (suite { config := some "d" })).execute none :
      StateM FileStore Transcript) s'
    given.1.exit = named.1.exit ∧ given.1.output = named.1.output ∧
      given.1.errors = named.1.errors ∧ given.2.content ["m"] = named.2.content ["m"] ∧
      given.2.content ["result.txt"] = named.2.content ["result.txt"] := by
  intro manifest s s' suite given named
  let flags : BenchOptions := { config := some "c", maxSimTime := some 8, activeLow := true }
  let options : SuiteOptions := { manifest := "m", bench := flags }
  have hflags : flags.Configured s { maxSimTime := 0, reset := { window := 2 } } :=
    .file rfl (load_eq_ok_iff.mp (by decide +kernel))
  have hpath : Loaded Config.ofJson s' "d"
      { maxSimTime := 8, reset := { window := 2, polarity := .activeLow } } :=
    load_eq_ok_iff.mp (by decide +kernel)
  have hapart : options.Apart (S := FileStore) {["d"]} s s' := {
    content := s.sameOutside_put ["d"] _
    source := (by decide +kernel : s.source "m" = s'.source "m")
    source_ne := by
      rintro _ rfl
      exact (by decide +kernel : s.source "m" ≠ .ok ["d"])
    target := (by decide +kernel : s.target "result.txt" = s'.target "result.txt")
    target_ne := by
      rintro _ rfl
      exact (by decide +kernel : s.target "result.txt" ≠ .ok ["d"]) }
  obtain ⟨-, hsuite, -⟩ := flags_and_file_interchangeable hflags rfl hpath
  obtain ⟨hexit, houtput, -, herrors, hfiles⟩ := hsuite options {["d"]} 0 none rfl hapart
  exact ⟨hexit, houtput, herrors, hfiles ["m"] (by decide : ["m"] ≠ ["d"]),
    hfiles ["result.txt"] (by decide : ["result.txt"] ≠ ["d"])⟩

end CycleBench.CommandLine
