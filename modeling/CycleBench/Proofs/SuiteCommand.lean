import CycleBench.Proofs.RunCommand

/-!
The command `suite` from end to end. The result of a case is its own (`resultOf`), whatever runs
before it. The stages of the command are ordered, and each ends it in its own way:

* `suite_ends_in_stages`: it is refused and touches no file, or lists names, or selects nothing,
  or runs the selection and changes the report file alone;
* `suite_agrees_with_runs`: each result is what the command `run` says of the case, and a suite that
  saves its report passes exactly when every such run does.
-/

namespace CycleBench

/-! ## Results of a suite -/

theorem SuiteReport.allPassed_iff (results : List CaseResult) :
    (SuiteReport.mk results).allPassed = true ↔ ∀ result ∈ results, result.verdict = .pass := by
  simp [SuiteReport.allPassed, CaseResult.passed, Verdict.isPass]

namespace Testbench

/-- The result of a case. -/
def resultOf (bench : Testbench) (test : SuiteCase) : CaseResult where
  name := test.name
  trap := bench.finalTrap test.program
  verdict := (bench.finalTrap test.program).verdict
  posedges := (bench.config.maxSimTime + 1) / 2

theorem runCase_fst (bench : Testbench) (test : SuiteCase) (log : Log) :
    (bench.runCase test log).1 = bench.resultOf test := by
  have hrun : (bench.run (bench.freshCore test.program) log).outcome =
      bench.outcomeOf (bench.finalTrap test.program) := outcome_freshCore ..
  simp only [runCase, hrun]
  rfl

theorem runCases_fst (bench : Testbench) (tests : List SuiteCase) (results : Array CaseResult)
    (log : Log) :
    (bench.runCases tests results log).1 = ⟨results.toList ++ tests.map bench.resultOf⟩ := by
  induction tests generalizing results log with
  | nil => simp [runCases]
  | cons test tests ih =>
    simp only [runCases]
    rw [ih, runCase_fst]
    simp

theorem runSuite_fst (bench : Testbench) (tests : List SuiteCase) (log : Log) :
    (bench.runSuite tests log).1 = ⟨tests.map bench.resultOf⟩ := by
  unfold runSuite
  rw [runCases_fst]
  rfl

variable {S : Type} [FileSystem S] {append : Bool} {path : String} {tests : List SuiteCase}
  {log : Log} {s s' : S}

/-- All cases have run when the report file is opened. -/
theorem on_runAndSave_of_error (bench : Testbench) {fault : FileFault}
    (h : FileSystem.target append s path = .error fault) :
    (bench.runAndSave append path tests : Work (StateM S) SuiteReport).on log s =
      ((.error (.file path fault), (bench.runSuite tests log).2), s) := by
  refine (Work.on_bind_ok (Work.on_get log s) _).trans ?_
  refine (Work.on_bind_ok (Work.on_set _ log s) _).trans ?_
  exact Work.on_bind_error (Work.on_saveTo_of_error _ h) _

theorem on_runAndSave_of_save (bench : Testbench)
    (h : ∀ log, ((SuiteReport.mk (tests.map bench.resultOf)).saveTo append path :
      Work (StateM S) Unit).on log s = ((.ok (), log), s')) :
    (bench.runAndSave append path tests : Work (StateM S) SuiteReport).on log s =
      ((.ok ⟨tests.map bench.resultOf⟩, (bench.runSuite tests log).2), s') := by
  rw [← bench.runSuite_fst tests log] at h ⊢
  refine (Work.on_bind_ok (Work.on_get log s) _).trans ?_
  refine (Work.on_bind_ok (Work.on_set _ log s) _).trans ?_
  exact Work.on_bind_ok (h _) _

end Testbench

namespace CommandLine

variable {S : Type} [FileSystem S]

namespace SuiteOptions

theorem select_single_eq_nil_iff (manifest : Manifest) (name : String) :
    manifest.select (.single name) = [] ↔ name ∉ manifest.names := by
  simp [Manifest.select, Manifest.get?, Manifest.names, List.find?_eq_none]

/-- Why a suite is refused: for its manifest; then, unless names are listed, for a single case
that is not there; and then, if any case is selected, for its bench or its report file. -/
inductive Refused (options : SuiteOptions) (s : S) : Failure → Prop
  | manifest {failure : Failure} (h : LoadFails Manifest.ofJson s options.manifest failure) :
    Refused options s failure
  | single {manifest : Manifest} {name : String}
    (h : Loaded Manifest.ofJson s options.manifest manifest) (hlist : options.list = false)
    (hselection : options.selection = .single name) (hname : name ∉ manifest.names) :
    Refused options s (.invalidConfiguration "single"
      ("no test named '" ++ name ++ "' in " ++ options.manifest))
  | bench {manifest : Manifest} {failure : Failure}
    (h : Loaded Manifest.ofJson s options.manifest manifest) (hlist : options.list = false)
    (hselection : manifest.select options.selection ≠ [])
    (hbench : options.bench.Refused s failure) : Refused options s failure
  | report {manifest : Manifest} {bench : Testbench} {fault : FileFault}
    (h : Loaded Manifest.ofJson s options.manifest manifest) (hlist : options.list = false)
    (hselection : manifest.select options.selection ≠ [])
    (hbench : options.bench.Settled s bench)
    (hreport : FileSystem.target options.append s options.out = .error fault) :
    Refused options s (.file options.out fault)

variable {options : SuiteOptions} {s : S} {log : Log}

theorem on_manifest {manifest : Manifest}
    (h : Loaded Manifest.ofJson s options.manifest manifest) :
    (Manifest.ofFile options.manifest : Work (StateM S) Manifest).on log s =
      ((.ok manifest, log), s) := by
  rw [Work.on_manifestFile, load_eq_ok_iff.mpr h]

omit [FileSystem S] in
theorem on_tests_of_single {manifest : Manifest} {name : String}
    (hselection : options.selection = .single name) (hname : name ∉ manifest.names) :
    (options.tests manifest : Work (StateM S) (List SuiteCase)).on log s =
      ((.error (.invalidConfiguration "single"
        ("no test named '" ++ name ++ "' in " ++ options.manifest)),
          log.extend (manifest.selectEvents options.selection)), s) := by
  unfold tests
  rw [hselection, (select_single_eq_nil_iff manifest name).mpr hname]
  rfl

omit [FileSystem S] in
theorem on_tests (log : Log) (s : S) {manifest : Manifest}
    (h : ∀ name, options.selection = .single name → name ∈ manifest.names) :
    (options.tests manifest : Work (StateM S) (List SuiteCase)).on log s =
      ((.ok (manifest.select options.selection),
        log.extend (manifest.selectEvents options.selection)), s) := by
  unfold tests
  cases hselection : options.selection with
  | all => rfl
  | group name => rfl
  | single name =>
    cases htests : manifest.select (.single name) with
    | nil => exact absurd (h name hselection) ((select_single_eq_nil_iff manifest name).mp htests)
    | cons test tests => rfl

theorem on_perform_of_listed {manifest : Manifest}
    (h : Loaded Manifest.ofJson s options.manifest manifest) (hlist : options.list = true) :
    (options.perform : Work (StateM S) Reply).on log s =
      ((.ok { passed := true, output := String.join (manifest.names.map (· ++ "\n")) }, log),
        s) := by
  refine (Work.on_bind_ok (on_manifest h) _).trans ?_
  simp only [hlist, if_true]
  rfl

theorem on_perform_of_loaded {manifest : Manifest}
    (h : Loaded Manifest.ofJson s options.manifest manifest) (hlist : options.list = false) :
    (options.perform : Work (StateM S) Reply).on log s =
      (options.tests manifest >>= options.runTests : Work (StateM S) Reply).on log s := by
  refine (Work.on_bind_ok (on_manifest h) _).trans ?_
  simp only [hlist]
  rfl

variable {tests : List SuiteCase}

theorem on_runTests_nil (log : Log) (s : S) :
    (options.runTests [] : Work (StateM S) Reply).on log s =
      ((.ok { passed := false, output := "", notice := "[!] No test cases selected\n" }, log),
        s) := rfl

theorem on_runTests_of_refused (htests : tests ≠ []) {failure : Failure}
    (hbench : options.bench.Refused s failure) :
    (options.runTests tests : Work (StateM S) Reply).on log s = ((.error failure, log), s) := by
  unfold runTests
  rw [if_neg (by simpa using htests)]
  exact Work.on_bind_error (BenchOptions.on_testbench_of_refused log hbench) _

theorem on_runTests_of_settled (htests : tests ≠ []) {bench : Testbench}
    (hbench : options.bench.Settled s bench) :
    (options.runTests tests : Work (StateM S) Reply).on log s =
      (bench.runAndSave options.append options.out tests >>= fun report =>
        pure (replyTo report) : Work (StateM S) Reply).on log s := by
  unfold runTests
  rw [if_neg (by simpa using htests)]
  exact Work.on_bind_ok (BenchOptions.on_testbench_of_settled log hbench) _

theorem mem_names_of_select_ne_nil {manifest : Manifest} {selection : Selection}
    (h : manifest.select selection ≠ []) {name : String} (hname : selection = .single name) :
    name ∈ manifest.names := by
  subst hname
  exact not_not.mp fun hnot => h ((select_single_eq_nil_iff manifest name).mpr hnot)

theorem on_perform_of_refused {failure : Failure} (h : options.Refused s failure) :
    ∃ log', (options.perform : Work (StateM S) Reply).on log s = ((.error failure, log'), s) := by
  cases h with
  | manifest h =>
    have hload : (Manifest.ofFile options.manifest : Work (StateM S) Manifest).on log s =
        ((.error failure, log), s) := by
      rw [Work.on_manifestFile, load_eq_error_iff.mpr h]
    exact ⟨log, Work.on_bind_error hload _⟩
  | single h hlist hselection hname =>
    exact ⟨_, (on_perform_of_loaded h hlist).trans
      (Work.on_bind_error (on_tests_of_single hselection hname) _)⟩
  | bench h hlist hselection hbench =>
    have htests := on_tests log s fun _ => mem_names_of_select_ne_nil hselection
    exact ⟨_, (on_perform_of_loaded h hlist).trans
      ((Work.on_bind_ok htests _).trans (on_runTests_of_refused hselection hbench))⟩
  | @report _ bench _ h hlist hselection hbench hreport =>
    have htests := on_tests log s fun _ => mem_names_of_select_ne_nil hselection
    exact ⟨_, (on_perform_of_loaded h hlist).trans ((Work.on_bind_ok htests _).trans
      ((on_runTests_of_settled hselection hbench).trans
        (Work.on_bind_error (bench.on_runAndSave_of_error hreport) _)))⟩

theorem on_perform_of_nil {manifest : Manifest}
    (h : Loaded Manifest.ofJson s options.manifest manifest) (hlist : options.list = false)
    (hsingle : ∀ name, options.selection = .single name → name ∈ manifest.names)
    (hselection : manifest.select options.selection = []) :
    ∃ log', (options.perform : Work (StateM S) Reply).on log s =
      ((.ok { passed := false, output := "", notice := "[!] No test cases selected\n" }, log'),
        s) := by
  have htests := on_tests log s hsingle
  rw [hselection] at htests
  exact ⟨_, (on_perform_of_loaded h hlist).trans
    ((Work.on_bind_ok htests _).trans (on_runTests_nil _ _))⟩

/-- A suite whose report is saved says so and is done. -/
theorem on_perform_of_save {manifest : Manifest} {bench : Testbench} {s' : S} (log : Log)
    (h : Loaded Manifest.ofJson s options.manifest manifest) (hlist : options.list = false)
    (hselection : manifest.select options.selection ≠ [])
    (hbench : options.bench.Settled s bench)
    (hsave : ∀ log, ((SuiteReport.mk ((manifest.select options.selection).map
      bench.resultOf)).saveTo options.append options.out : Work (StateM S) Unit).on log s =
        ((.ok (), log), s')) :
    ∃ log', (options.perform : Work (StateM S) Reply).on log s =
      ((.ok (replyTo ⟨(manifest.select options.selection).map bench.resultOf⟩), log'), s') := by
  have htests := on_tests log s fun _ => mem_names_of_select_ne_nil hselection
  exact ⟨_, (on_perform_of_loaded h hlist).trans ((Work.on_bind_ok htests _).trans
    ((on_runTests_of_settled hselection hbench).trans
      (Work.on_bind_ok (bench.on_runAndSave_of_save hsave) _)))⟩

theorem on_perform_of_saved {manifest : Manifest} {bench : Testbench} {file : FileSystem.File S}
    (h : Loaded Manifest.ofJson s options.manifest manifest) (hlist : options.list = false)
    (hselection : manifest.select options.selection ≠ [])
    (hbench : options.bench.Settled s bench)
    (hreport : FileSystem.target options.append s options.out = .ok file) :
    let report : SuiteReport := ⟨(manifest.select options.selection).map bench.resultOf⟩
    ∃ log' s', (options.perform : Work (StateM S) Reply).on log s =
        ((.ok (replyTo report), log'), s') ∧
      FileSystem.content s' file =
        some (Host.saved options.append (FileSystem.content s file) report.text.toUTF8) ∧
      ∀ other, other ≠ file → FileSystem.content s' other = FileSystem.content s other := by
  intro report
  obtain ⟨s', hsave, hchange⟩ := Work.on_saveTo_of_ok report hreport
  obtain ⟨log', hperform⟩ := on_perform_of_save log h hlist hselection hbench hsave
  exact ⟨log', s', hperform, hchange⟩

theorem refused_or_goes_on (options : SuiteOptions) (s : S) :
    (∃ failure, options.Refused s failure) ∨
      ∃ manifest, Loaded Manifest.ofJson s options.manifest manifest ∧
        (options.list = false →
          (∀ name, options.selection = .single name → name ∈ manifest.names) ∧
          (manifest.select options.selection ≠ [] → ∃ bench file, options.bench.Settled s bench ∧
            FileSystem.target options.append s options.out = .ok file)) := by
  by_contra! hnot
  obtain ⟨hrefused, hstuck⟩ := hnot
  cases hload : load Manifest.ofJson s options.manifest with
  | error failure => exact hrefused _ (.manifest (load_eq_error_iff.mp hload))
  | ok manifest =>
    have h := load_eq_ok_iff.mp hload
    obtain ⟨hlist, hstuck⟩ := hstuck manifest h
    have hsingle : ∀ name, options.selection = .single name → name ∈ manifest.names :=
      fun name hselection => not_not.mp fun hname =>
        hrefused _ (.single h hlist hselection hname)
    obtain ⟨hselection, hstuck⟩ := hstuck hsingle
    cases hsettle : options.bench.settle s with
    | error failure =>
      exact hrefused _ (.bench h hlist hselection (BenchOptions.settle_eq_error_iff.mp hsettle))
    | ok bench =>
      have hbench := BenchOptions.settle_eq_ok_iff.mp hsettle
      cases hreport : FileSystem.target options.append s options.out with
      | error fault => exact hrefused _ (.report h hlist hselection hbench hreport)
      | ok file => exact hstuck bench file hbench hreport

variable (threshold : Threshold)

theorem execute_of_refused {failure : Failure} (h : options.Refused s failure) :
    ∃ log, ((Command.suite options).execute threshold : StateM S Transcript) s =
      (⟨2, "", log, "[!] " ++ failure.message ++ "\n"⟩, s) := by
  obtain ⟨log, hperform⟩ := on_perform_of_refused h
  exact ⟨log, Command.execute_of_error (.suite options) hperform⟩

theorem execute_of_listed {manifest : Manifest}
    (h : Loaded Manifest.ofJson s options.manifest manifest) (hlist : options.list = true) :
    ((Command.suite options).execute threshold : StateM S Transcript) s =
      (⟨0, String.join (manifest.cases.map fun test => test.name ++ "\n"), { threshold }, ""⟩,
        s) := by
  have hnames : manifest.names.map (· ++ "\n") =
      manifest.cases.map fun test => test.name ++ "\n" := List.map_map ..
  rw [← hnames]
  exact Command.execute_of_ok (.suite options) (on_perform_of_listed h hlist)

theorem execute_of_nil {manifest : Manifest}
    (h : Loaded Manifest.ofJson s options.manifest manifest) (hlist : options.list = false)
    (hsingle : ∀ name, options.selection = .single name → name ∈ manifest.names)
    (hselection : manifest.select options.selection = []) :
    ∃ log, ((Command.suite options).execute threshold : StateM S Transcript) s =
      (⟨1, "", log, "[!] No test cases selected\n"⟩, s) := by
  obtain ⟨log, hperform⟩ := on_perform_of_nil h hlist hsingle hselection
  exact ⟨log, Command.execute_of_ok (.suite options) hperform⟩

theorem execute_of_saved {manifest : Manifest} {bench : Testbench} {file : FileSystem.File S}
    (h : Loaded Manifest.ofJson s options.manifest manifest) (hlist : options.list = false)
    (hselection : manifest.select options.selection ≠ [])
    (hbench : options.bench.Settled s bench)
    (hreport : FileSystem.target options.append s options.out = .ok file) :
    let report : SuiteReport := ⟨(manifest.select options.selection).map bench.resultOf⟩
    ∃ log s', ((Command.suite options).execute threshold : StateM S Transcript) s =
        (⟨if ∀ result ∈ report.results, result.verdict = .pass then 0 else 1,
          report.text ++ "[*] " ++ report.summary.text ++ "\n", log, ""⟩, s') ∧
      FileSystem.content s' file =
        some (Host.saved options.append (FileSystem.content s file) report.text.toUTF8) ∧
      ∀ other, other ≠ file → FileSystem.content s' other = FileSystem.content s other := by
  obtain ⟨log, s', hperform, hchange⟩ :=
    on_perform_of_saved h hlist hselection hbench hreport
  simp only [← SuiteReport.allPassed_iff]
  exact ⟨log, s', Command.execute_of_ok (.suite options) hperform, hchange⟩

end SuiteOptions

/-- **A suite ends in stages.** It is refused and leaves every file as it is; or it lists the
names, whatever the selection; or the selection is empty, and the bench does not matter; or the
cases run, the report goes to its file and to standard output, and no other file changes. -/
theorem suite_ends_in_stages (options : SuiteOptions) (verbosity : Nat)
    (choice : Option Threshold) (s : S) :
    let done := ((Invocation.mk verbosity (.suite options)).execute choice : StateM S Transcript) s
    let transcript := done.1
    (transcript.exit = 2 ↔ ∃ failure, options.Refused s failure) ∧
    (∀ failure, options.Refused s failure → transcript.output = "" ∧ done.2 = s ∧
      transcript.notice = "[!] " ++ failure.message ++ "\n") ∧
    ((∀ failure, ¬ options.Refused s failure) →
      ∃ manifest, Loaded Manifest.ofJson s options.manifest manifest ∧
        let tests := manifest.select options.selection
        (options.list = true →
          transcript.exit = 0 ∧ done.2 = s ∧
          transcript.output = String.join (manifest.cases.map fun test => test.name ++ "\n")) ∧
        (options.list = false → tests = [] →
          transcript.exit = 1 ∧ done.2 = s ∧ transcript.output = "") ∧
        (options.list = false → tests ≠ [] → ∃ bench file,
          options.bench.Settled s bench ∧
          FileSystem.target options.append s options.out = .ok file ∧
          let report : SuiteReport := ⟨tests.map bench.resultOf⟩
          (∀ log, (bench.runSuite tests log).1 = report) ∧
          FileSystem.content done.2 file =
            some (Host.saved options.append (FileSystem.content s file) report.text.toUTF8) ∧
          (∀ other, other ≠ file →
            FileSystem.content done.2 other = FileSystem.content s other) ∧
          transcript.output = report.text ++ "[*] " ++ report.summary.text ++ "\n" ∧
          transcript.exit =
            if ∀ result ∈ report.results, result.verdict = .pass then 0 else 1)) := by
  intro done transcript
  have hrefused : ∀ failure, options.Refused s failure →
      ∃ log, done = (⟨2, "", log, "[!] " ++ failure.message ++ "\n"⟩, s) := fun failure h =>
    SuiteOptions.execute_of_refused _ h
  rcases options.refused_or_goes_on s with ⟨failure, h⟩ | ⟨manifest, h, hgoes⟩
  · obtain ⟨log, hdone⟩ := hrefused failure h
    refine ⟨⟨fun _ => ⟨failure, h⟩, fun _ => congrArg (fun p => p.1.exit) hdone⟩, ?_,
      fun hnone => absurd h (hnone failure)⟩
    intro failure' h'
    obtain ⟨log', hdone'⟩ := hrefused failure' h'
    exact ⟨congrArg (fun p => p.1.output) hdone', congrArg Prod.snd hdone',
      congrArg (fun p => p.1.notice) hdone'⟩
  -- every other end is told from a refusal by its exit status
  have hend : ∀ {Q : Failure → Prop} {P : Prop}, transcript.exit ≠ 2 → P →
      (transcript.exit = 2 ↔ ∃ failure, options.Refused s failure) ∧
      (∀ failure, options.Refused s failure → Q failure) ∧
      ((∀ failure, ¬ options.Refused s failure) → P) := by
    intro Q P hexit hP
    have hnone : ∀ failure, ¬ options.Refused s failure := fun failure h =>
      have ⟨_, hdone⟩ := hrefused failure h
      hexit (congrArg (fun p => p.1.exit) hdone)
    exact ⟨⟨fun h => absurd h hexit, fun ⟨failure, h⟩ => absurd h (hnone failure)⟩,
      fun failure h => absurd h (hnone failure), fun _ => hP⟩
  cases hlist : options.list with
  | true =>
    have hdone : done = _ := SuiteOptions.execute_of_listed _ h hlist
    have hexit : transcript.exit = 0 := congrArg (fun p => p.1.exit) hdone
    refine hend (by rw [hexit]; decide) ⟨manifest, h, fun _ => ?_, nofun, nofun⟩
    exact ⟨hexit, congrArg Prod.snd hdone, congrArg (fun p => p.1.output) hdone⟩
  | false =>
    obtain ⟨hsingle, hreport⟩ := hgoes hlist
    by_cases hselection : manifest.select options.selection = []
    · obtain ⟨log, hdone⟩ := SuiteOptions.execute_of_nil
        (choice.getD (.ofVerbosity verbosity)) h hlist hsingle hselection
      have hexit : transcript.exit = 1 := congrArg (fun p => p.1.exit) hdone
      refine hend (by rw [hexit]; decide) ⟨manifest, h, nofun, fun _ _ => ?_,
        fun _ hne => absurd hselection hne⟩
      exact ⟨hexit, congrArg Prod.snd hdone, congrArg (fun p => p.1.output) hdone⟩
    · obtain ⟨bench, file, hbench, htarget⟩ := hreport hselection
      obtain ⟨log, s', hdone, hcontent, hothers⟩ := SuiteOptions.execute_of_saved
        (choice.getD (.ofVerbosity verbosity)) h hlist hselection hbench htarget
      have hstate : done.2 = s' := congrArg Prod.snd hdone
      have hexit := congrArg (fun p => p.1.exit) hdone
      refine hend (fun htwo => exit_ne_two (hexit.symm.trans htwo))
        ⟨manifest, h, nofun, fun _ hnil => absurd hnil hselection, fun _ _ => ?_⟩
      rw [← hstate] at hcontent hothers
      exact ⟨bench, file, hbench, htarget, bench.runSuite_fst _, hcontent, hothers,
        congrArg (fun p => p.1.output) hdone, hexit⟩

/-! ## Suites and runs -/

namespace RunOptions

/-- The run of a case with the settings of a suite. -/
def single (flags : RunOptions) (bench : BenchOptions) (test : SuiteCase) : RunOptions :=
  { flags with bench, program := test.program }

/-- What a run prints that ends like a case. -/
def Prints (options : RunOptions) (s : S) (result : CaseResult) : Prop :=
  ∀ (verbosity : Nat) (choice : Option Threshold),
    let transcript :=
      (((Invocation.mk verbosity (.run options)).execute choice : StateM S Transcript) s).1
    ∃ details, transcript.output = result.verdict.label ++ "\n" ++ details ∧
      (options.stats = true ∨ options.sections ≠ [] → ∃ table, details =
        "[*] " ++ result.trap.text ++ "  posedges=" ++ toString result.posedges ++ "\n" ++ table)

variable {flags : RunOptions} {settings : BenchOptions} {s : S} {bench : Testbench}

theorem prints_single (hbench : settings.Settled s bench)
    (hflags : ∀ name ∈ flags.sections, name = "summary" ∨ name = "reset") (test : SuiteCase) :
    (flags.single settings test).Prints s (bench.resultOf test) := by
  intro verbosity choice transcript
  obtain ⟨elapsed, log, hdone⟩ := execute_of_settled (choice.getD (.ofVerbosity verbosity))
    (flags.single settings test) hflags hbench
  refine ⟨_, congrArg (fun p => p.1.output) hdone, fun hstats => ?_⟩
  exact ⟨_, if_pos ((wantsStats_iff _).mpr hstats)⟩

theorem exit_single_eq_zero_iff (hbench : settings.Settled s bench)
    (hflags : ∀ name ∈ flags.sections, name = "summary" ∨ name = "reset") (test : SuiteCase)
    (verbosity : Nat) (choice : Option Threshold) :
    (((Invocation.mk verbosity (.run (flags.single settings test))).execute choice :
      StateM S Transcript) s).1.exit = 0 ↔ (bench.resultOf test).verdict = .pass := by
  obtain ⟨elapsed, log, hdone⟩ := execute_of_settled (choice.getD (.ofVerbosity verbosity))
    (flags.single settings test) hflags hbench
  rw [← Verdict.label_eq_pass_iff]
  exact (iff_of_eq (congrArg (fun p => p.1.exit = 0) hdone)).trans exit_eq_zero_iff

end RunOptions

/-- **A suite agrees with single runs.** Under the same settings each selected case has one
result, in the order of the selection: the verdict, the trap and the rising edges of a run of its
program, whatever else the run logs or prints. A suite that can save its report passes exactly
when each of the runs does. -/
theorem suite_agrees_with_runs (settings : BenchOptions) (s : S) {bench : Testbench}
    (hbench : settings.Settled s bench) (manifest : Manifest) (selection : Selection)
    (hselection : manifest.select selection ≠ []) (flags : RunOptions)
    (hflags : ∀ name ∈ flags.sections, name = "summary" ∨ name = "reset") (log : Log) :
    let tests := manifest.select selection
    let report := (bench.runSuite tests log).1
    List.Forall₂ (fun test result =>
        result.name = test.name ∧
        result.posedges = (bench.config.maxSimTime + 1) / 2 ∧
        (∀ log', let outcome := ((flags.single settings test).drive bench log').1
          outcome.trap = result.trap ∧ outcome.verdict = result.verdict ∧
            outcome.posedges = result.posedges) ∧
        (flags.single settings test).Prints s result)
      tests report.results ∧
    ∀ (suite : SuiteOptions) (file : FileSystem.File S) (verbosity : Nat)
      (choice : Option Threshold),
      suite.bench = settings → suite.selection = selection → suite.list = false →
      Loaded Manifest.ofJson s suite.manifest manifest →
      FileSystem.target suite.append s suite.out = .ok file →
      let transcript :=
        (((Invocation.mk verbosity (.suite suite)).execute choice : StateM S Transcript) s).1
      transcript.output = report.text ++ "[*] " ++ report.summary.text ++ "\n" ∧
      (transcript.exit = 0 ↔ ∀ test ∈ tests,
        (((Invocation.mk verbosity (.run (flags.single settings test))).execute choice :
          StateM S Transcript) s).1.exit = 0) := by
  intro tests report
  have hreport : report = ⟨tests.map bench.resultOf⟩ := bench.runSuite_fst tests log
  rw [hreport]
  constructor
  · rw [List.forall₂_map_right_iff, List.forall₂_same]
    refine fun test _ => ⟨rfl, rfl, fun log' => ?_, RunOptions.prints_single hbench hflags test⟩
    rw [RunOptions.drive_fst]
    exact ⟨rfl, rfl, rfl⟩
  · rintro suite file verbosity choice rfl rfl hlist hmanifest htarget transcript
    obtain ⟨log', s', hdone, -⟩ := SuiteOptions.execute_of_saved
      (choice.getD (.ofVerbosity verbosity)) hmanifest hlist hselection hbench htarget
    refine ⟨congrArg (fun p => p.1.output) hdone, ?_⟩
    refine (iff_of_eq (congrArg (fun p => p.1.exit = 0) hdone)).trans (exit_eq_zero_iff.trans ?_)
    simp only [RunOptions.exit_single_eq_zero_iff hbench hflags]
    exact List.forall_mem_map

/-- A case that is too late for the bench fails its suite as it fails its own run; the case
before it passes. -/
theorem late_case_fails_suite :
    let settings : BenchOptions := { maxSimTime := some 40, resetWindow := some 4 }
    let bench : Testbench := ⟨settings.override {}, by decide, by decide⟩
    let prompt : SuiteCase := { name := "prompt", program := .passing 1 }
    let late : SuiteCase := { name := "late" }
    let manifest : Manifest := ⟨[prompt, late]⟩
    let suite : SuiteOptions := { manifest := "m", bench := settings }
    let files := FileStore.empty.put ["m"] (.file
      "[[[\"prompt\", null, [0, 11, 1]], \x7b\"name\": \"late\"\x7d]]".toUTF8)
    let report := (bench.runSuite [prompt, late] { threshold := none }).1
    let exit := fun command : Command =>
      (((Invocation.mk 0 command).execute none : StateM FileStore Transcript) files).1.exit
    settings.Settled files bench ∧ Loaded Manifest.ofJson files "m" manifest ∧
      report.results.map (fun result => (result.name, result.verdict)) =
        [("prompt", .pass), ("late", .undefinedError)] ∧
      List.Forall₂ (fun test => (RunOptions.single {} settings test).Prints files)
        [prompt, late] report.results ∧
      exit (.run (RunOptions.single {} settings prompt)) = 0 ∧
      exit (.run (RunOptions.single {} settings late)) ≠ 0 ∧
      exit (.suite suite) ≠ 0 := by
  intro settings bench prompt late manifest suite files report exit
  have hbench : settings.Settled files bench := ⟨{}, .standard rfl, rfl⟩
  have hmanifest : Loaded Manifest.ofJson files "m" manifest :=
    load_eq_ok_iff.mp (by decide +kernel)
  obtain ⟨hresults, hexit⟩ := suite_agrees_with_runs settings files hbench manifest .all nofun
    {} nofun { threshold := none }
  have hruns := hexit suite ["result.txt"] 0 none rfl rfl rfl hmanifest
    (by decide +kernel : FileStore.target files "result.txt" = .ok ["result.txt"])
  have hprompt : exit (.run (RunOptions.single {} settings prompt)) = 0 := by decide +kernel
  have hlate : exit (.run (RunOptions.single {} settings late)) ≠ 0 := by decide +kernel
  refine ⟨hbench, hmanifest, by decide +kernel, hresults.imp fun _ _ h => h.2.2.2, hprompt, hlate,
    fun hsuite => hlate (hruns.2.mp hsuite late (by decide))⟩

/-- What a suite does besides running its cases has a say in its exit status: it fails when its
report cannot be saved, though the run of its only case passes, and it passes when it is asked for
the names, though the run of a case fails. -/
theorem unsaved_report_fails_suite :
    let settings : BenchOptions := { maxSimTime := some 40, resetWindow := some 4 }
    let bench : Testbench := ⟨settings.override {}, by decide, by decide⟩
    let prompt : SuiteCase := { name := "prompt", program := .passing 1 }
    let late : SuiteCase := { name := "late" }
    let manifest : Manifest := ⟨[prompt, late]⟩
    let unsaved : SuiteOptions := {
      manifest := "m"
      bench := settings
      selection := .single "prompt"
      out := "missing/dir/r.txt" }
    let listed : SuiteOptions := { manifest := "m", bench := settings, list := true }
    let files := FileStore.empty.put ["m"] (.file
      "[[[\"prompt\", null, [0, 11, 1]], \x7b\"name\": \"late\"\x7d]]".toUTF8)
    let exit := fun command : Command =>
      (((Invocation.mk 0 command).execute none : StateM FileStore Transcript) files).1.exit
    settings.Settled files bench ∧ Loaded Manifest.ofJson files "m" manifest ∧
      manifest.select (.single "prompt") = [prompt] ∧
      exit (.run (RunOptions.single {} settings prompt)) = 0 ∧
      exit (.suite unsaved) = 2 ∧
      exit (.run (RunOptions.single {} settings late)) = 1 ∧
      exit (.suite listed) = 0 := by
  intro settings bench prompt late manifest unsaved listed files exit
  have hbench : settings.Settled files bench := ⟨{}, .standard rfl, rfl⟩
  have hmanifest : Loaded Manifest.ofJson files "m" manifest :=
    load_eq_ok_iff.mp (by decide +kernel)
  exact ⟨hbench, hmanifest, by decide +kernel, by decide +kernel, by decide +kernel,
    by decide +kernel, by decide +kernel⟩

end CommandLine

end CycleBench
