import CycleBench.Proofs.CoreRun
import CycleBench.Proofs.Settings

/-!
The command `run` from end to end. It is refused for the first reason that applies
(`RunOptions.Refused`), or else drives the core on the settled bench and says how the run ended;
the files stay as they are either way (`run_says_verdict_or_is_refused`).
-/

namespace CycleBench

namespace Testbench

/-- The trap that a program's run ends with. -/
def finalTrap (bench : Testbench) (program : Program) : TrapRecord :=
  if trapTime bench.reset.window program.latency < bench.config.maxSimTime then program.trap
  else TrapRecord.idle

theorem verdict_finalTrap (bench : Testbench) (program : Program) :
    (bench.finalTrap program).verdict =
      if trapTime bench.reset.window program.latency < bench.config.maxSimTime then
        classify program.resultCode program.causeCode
      else .undefinedError :=
  apply_ite TrapRecord.verdict _ _ _

/-- A fresh core ends like its program, under any probe and whatever was logged before. -/
theorem outcome_freshCore {π : Type} [Probe π] (bench : Testbench) (program : Program)
    (probe : π) (log : Log) :
    (bench.runWith (bench.freshCore program) probe log).outcome =
      bench.outcomeOf (bench.finalTrap program) := by
  rw [outcome_runWith, (bench.runWith_core rfl probe log).2, outputs_coreAt]
  rfl

end Testbench

theorem Verdict.label_eq_pass_iff (verdict : Verdict) :
    verdict.label = "PASS" ↔ verdict = .pass := by
  cases verdict <;> decide

theorem Verdict.isPass_iff (verdict : Verdict) :
    verdict.isPass = true ↔ verdict.label = "PASS" := by
  rw [label_eq_pass_iff]
  exact decide_eq_true_iff

/-! ## Carrying out a command -/

namespace CommandLine

theorem exit_eq_zero_iff {P : Prop} [Decidable P] : (if P then 0 else 1 : UInt32) = 0 ↔ P := by
  split <;> simp_all

theorem exit_ne_two {P : Prop} [Decidable P] : (if P then 0 else 1 : UInt32) ≠ 2 := by
  split <;> decide

variable {S : Type} [FileSystem S]

namespace Command

variable (command : Command) {threshold : Threshold} {s s' : S} {log : Log}

theorem execute_of_ok {reply : Reply}
    (h : (command.perform : Work (StateM S) Reply).on { threshold } s = ((.ok reply, log), s')) :
    (command.execute threshold : StateM S Transcript) s =
      (⟨if reply.passed then 0 else 1, reply.output, log, reply.notice⟩, s') := by
  unfold execute
  rw [Work.run_bind, h]
  rfl

theorem execute_of_error {failure : Failure}
    (h : (command.perform : Work (StateM S) Reply).on { threshold } s =
      ((.error failure, log), s')) :
    (command.execute threshold : StateM S Transcript) s =
      (⟨2, "", log, "[!] " ++ failure.message ++ "\n"⟩, s') := by
  unfold execute
  rw [Work.run_bind, h]
  rfl

end Command

/-! ## The sections of the statistics -/

/-- The first name among several that is none of a section. -/
def FirstUnknown (names : List String) (name : String) : Prop :=
  ∃ before after, names = before ++ name :: after ∧
    (∀ known ∈ before, known = "summary" ∨ known = "reset") ∧ name ≠ "summary" ∧ name ≠ "reset"

theorem isKnown_iff (name : String) :
    (StatsSection.all.map StatsSection.name).contains name = true ↔
      name = "summary" ∨ name = "reset" := by
  simp [StatsSection.all, StatsSection.name]

theorem isUnknown_iff (name : String) :
    (!(StatsSection.all.map StatsSection.name).contains name) = true ↔
      name ≠ "summary" ∧ name ≠ "reset" := by
  rw [Bool.not_eq_true', ← Bool.not_eq_true, isKnown_iff, not_or]

theorem check_eq_ok_iff {names : List String} :
    StatsSection.check names = .ok () ↔ ∀ name ∈ names, name = "summary" ∨ name = "reset" := by
  have hnone : StatsSection.check names = .ok () ↔
      names.find? (fun name => !(StatsSection.all.map StatsSection.name).contains name) = none := by
    unfold StatsSection.check
    cases names.find? _ <;> simp
  rw [hnone, List.find?_eq_none]
  simp only [Bool.not_eq_true', Bool.not_eq_false, isKnown_iff]

theorem check_eq_error_iff {names : List String} {failure : Failure} :
    StatsSection.check names = .error failure ↔
      ∃ name, FirstUnknown names name ∧ failure = StatsSection.unknownFailure name := by
  have hsome : StatsSection.check names = .error failure ↔ ∃ name,
      names.find? (fun name => !(StatsSection.all.map StatsSection.name).contains name) =
        some name ∧ failure = StatsSection.unknownFailure name := by
    unfold StatsSection.check
    cases names.find? _ <;> simp [eq_comm]
  rw [hsome]
  refine exists_congr fun name => and_congr_left fun _ => ?_
  rw [List.find?_eq_some_iff_append, isUnknown_iff]
  simp only [Bool.not_not, isKnown_iff, FirstUnknown]
  constructor
  · rintro ⟨hname, before, after, rfl, hbefore⟩
    exact ⟨before, after, rfl, hbefore, hname⟩
  · rintro ⟨before, after, rfl, hbefore, hname⟩
    exact ⟨hname, before, after, rfl, hbefore⟩

/-! ## The command -/

namespace RunOptions

/-- Why a run is refused: for the first section that is none, and failing that for what is wrong
with the bench. -/
inductive Refused (options : RunOptions) (s : S) : Failure → Prop
  | unknown {name : String} (h : FirstUnknown options.sections name) :
    Refused options s (StatsSection.unknownFailure name)
  | bench {failure : Failure} (h : ∀ name ∈ options.sections, name = "summary" ∨ name = "reset")
    (hbench : options.bench.Refused s failure) : Refused options s failure

theorem wantsStats_iff (options : RunOptions) :
    options.wantsStats = true ↔ options.stats = true ∨ options.sections ≠ [] := by
  simp [wantsStats]

theorem details_ne_empty_iff (options : RunOptions) (outcome : Outcome)
    (elapsed : Option Nat) :
    options.details outcome elapsed ≠ "" ↔ options.stats = true ∨ options.sections ≠ [] := by
  rw [← wantsStats_iff]
  unfold details
  split
  · next h => simp [h]
  · next h => simp [h]

variable {options : RunOptions} {s : S} {log : Log}

theorem drive_fst (options : RunOptions) (bench : Testbench) (log : Log) :
    (options.drive bench log).1 = bench.outcomeOf (bench.finalTrap options.program) := by
  unfold drive
  split <;> exact bench.outcome_freshCore ..

omit [FileSystem S] in
theorem on_check {names : List String}
    (h : ∀ name ∈ names, name = "summary" ∨ name = "reset") (log : Log) (s : S) :
    (Work.ofExcept (StatsSection.check names) : Work (StateM S) Unit).on log s =
      ((.ok (), log), s) := by
  rw [Work.on_ofExcept, check_eq_ok_iff.mpr h]

theorem on_perform_of_refused {failure : Failure} (h : options.Refused s failure) :
    (options.perform : Work (StateM S) Reply).on log s = ((.error failure, log), s) := by
  cases h with
  | @unknown name h =>
    have hcheck : (Work.ofExcept (StatsSection.check options.sections) :
        Work (StateM S) Unit).on log s = ((.error (StatsSection.unknownFailure name), log), s) := by
      rw [Work.on_ofExcept, check_eq_error_iff.mpr ⟨name, h, rfl⟩]
    exact Work.on_bind_error hcheck _
  | bench hsections hbench =>
    exact (Work.on_bind_ok (on_check hsections log s) _).trans
      (Work.on_bind_error (BenchOptions.on_testbench_of_refused log hbench) _)

theorem on_perform_of_settled (log : Log) {bench : Testbench}
    (hsections : ∀ name ∈ options.sections, name = "summary" ∨ name = "reset")
    (hbench : options.bench.Settled s bench) :
    ∃ elapsed log', (options.perform : Work (StateM S) Reply).on log s =
      ((.ok (options.reply (bench.outcomeOf (bench.finalTrap options.program)) elapsed), log'),
        s) := by
  have hsettle := BenchOptions.on_testbench_of_settled log hbench
  obtain ⟨elapsed, htimed⟩ := FileSystem.timed_eq (fun _ => options.drive bench log) s
  refine ⟨elapsed, (options.drive bench log).2, ?_⟩
  refine (Work.on_bind_ok (on_check hsections log s) _).trans ?_
  refine (Work.on_bind_ok hsettle _).trans ?_
  refine (Work.on_bind_ok (Work.on_get log s) _).trans ?_
  refine (Work.on_bind_ok (Work.on_lift log htimed) _).trans ?_
  refine (Work.on_bind_ok (Work.on_set _ log s) _).trans ?_
  rw [← options.drive_fst bench log]
  rfl

theorem refused_or_settled (options : RunOptions) (s : S) :
    (∃ failure, options.Refused s failure) ∨
      (∀ name ∈ options.sections, name = "summary" ∨ name = "reset") ∧
        ∃ bench, options.bench.Settled s bench := by
  cases hcheck : StatsSection.check options.sections with
  | error failure =>
    obtain ⟨name, hname, rfl⟩ := check_eq_error_iff.mp hcheck
    exact .inl ⟨_, .unknown hname⟩
  | ok _ =>
    have hsections := check_eq_ok_iff.mp hcheck
    cases hsettle : options.bench.settle s with
    | error failure =>
      exact .inl ⟨_, .bench hsections (BenchOptions.settle_eq_error_iff.mp hsettle)⟩
    | ok bench => exact .inr ⟨hsections, bench, BenchOptions.settle_eq_ok_iff.mp hsettle⟩

variable (threshold : Threshold)

theorem execute_of_refused {failure : Failure} (h : options.Refused s failure) :
    ((Command.run options).execute threshold : StateM S Transcript) s =
      (⟨2, "", { threshold }, "[!] " ++ failure.message ++ "\n"⟩, s) :=
  Command.execute_of_error (.run options) (on_perform_of_refused h)

theorem execute_of_settled (options : RunOptions) {bench : Testbench}
    (hsections : ∀ name ∈ options.sections, name = "summary" ∨ name = "reset")
    (hbench : options.bench.Settled s bench) :
    ∃ elapsed log, ((Command.run options).execute threshold : StateM S Transcript) s =
      (⟨if (bench.finalTrap options.program).verdict.label = "PASS" then 0 else 1,
        (bench.finalTrap options.program).verdict.label ++ "\n" ++
          options.details (bench.outcomeOf (bench.finalTrap options.program)) elapsed,
        log, ""⟩, s) := by
  obtain ⟨elapsed, log, hperform⟩ := on_perform_of_settled { threshold } hsections hbench
  refine ⟨elapsed, log, (Command.execute_of_ok (.run options) hperform).trans ?_⟩
  simp only [← Verdict.isPass_iff]
  rfl

end RunOptions

/-- **A run says its verdict or why it is refused.** Standard output begins with the label of the
verdict, which is undefined unless the trap comes before the bound; statistics follow exactly
when they are asked for, headed by the same trap and the rising edges. No file is touched. -/
theorem run_says_verdict_or_is_refused (options : RunOptions) (verbosity : Nat)
    (choice : Option Threshold) (s : S) :
    let done := ((Invocation.mk verbosity (.run options)).execute choice : StateM S Transcript) s
    let transcript := done.1
    done.2 = s ∧
    (transcript.exit = 2 ↔ ∃ failure, options.Refused s failure) ∧
    (∀ failure, options.Refused s failure →
      transcript.output = "" ∧ transcript.errors = "[!] " ++ failure.message ++ "\n") ∧
    ((∀ failure, ¬ options.Refused s failure) →
      ∃ config details, options.bench.Configured s config ∧
        let merged := options.bench.override config
        let time := Testbench.trapTime merged.reset.window options.program.latency
        let verdict := if time < merged.maxSimTime then
          classify options.program.resultCode options.program.causeCode else .undefinedError
        let trap := if time < merged.maxSimTime then options.program.trap else TrapRecord.idle
        transcript.output = verdict.label ++ "\n" ++ details ∧
        (details ≠ "" ↔ options.stats = true ∨ options.sections ≠ []) ∧
        (details ≠ "" → ∃ table, details = "[*] " ++ trap.text ++ "  posedges=" ++
          toString ((merged.maxSimTime + 1) / 2) ++ "\n" ++ table) ∧
        transcript.exit = if verdict.label = "PASS" then 0 else 1) := by
  intro done transcript
  have hrefused : ∀ failure, options.Refused s failure →
      done = (⟨2, "", { threshold := _ }, "[!] " ++ failure.message ++ "\n"⟩, s) := fun failure h =>
    RunOptions.execute_of_refused _ h
  rcases options.refused_or_settled s with ⟨failure, h⟩ | ⟨hsections, bench, hsettled⟩
  · have hdone := hrefused failure h
    refine ⟨congrArg Prod.snd hdone, ⟨fun _ => ⟨failure, h⟩, fun _ => ?_⟩, ?_, ?_⟩
    · exact congrArg (fun p => p.1.exit) hdone
    · intro failure' h'
      have hdone' := hrefused failure' h'
      refine ⟨congrArg (fun p => p.1.output) hdone', ?_⟩
      exact (congrArg (fun p => p.1.errors) hdone').trans String.empty_append
    · exact fun hnone => absurd h (hnone failure)
  · obtain ⟨elapsed, log, hdone⟩ := RunOptions.execute_of_settled
      (choice.getD (.ofVerbosity verbosity)) options hsections hsettled
    have hexit : transcript.exit =
        if (bench.finalTrap options.program).verdict.label = "PASS" then 0 else 1 :=
      congrArg (fun p => p.1.exit) hdone
    have hnot : transcript.exit ≠ 2 := fun htwo => exit_ne_two (hexit.symm.trans htwo)
    have hnone : ∀ failure, ¬ options.Refused s failure := fun failure h =>
      hnot (congrArg (fun p => p.1.exit) (hrefused failure h))
    refine ⟨congrArg Prod.snd hdone, ⟨fun h => absurd h hnot, fun ⟨failure, h⟩ =>
      absurd h (hnone failure)⟩, fun failure h => absurd h (hnone failure), fun _ => ?_⟩
    obtain ⟨config, hconfig, hbench⟩ := hsettled
    refine ⟨config, options.details (bench.outcomeOf (bench.finalTrap options.program)) elapsed,
      hconfig, ?_⟩
    rw [← hbench]
    intro merged time verdict trap
    have hverdict : (bench.finalTrap options.program).verdict = verdict :=
      bench.verdict_finalTrap options.program
    rw [← hverdict]
    refine ⟨congrArg (fun p => p.1.output) hdone, options.details_ne_empty_iff _ _, fun h => ?_,
      hexit⟩
    have hwanted := options.wantsStats_iff.mpr ((options.details_ne_empty_iff _ _).mp h)
    exact ⟨_, if_pos hwanted⟩

end CommandLine

end CycleBench
