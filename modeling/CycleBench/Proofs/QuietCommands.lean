import CycleBench.Proofs.Agreement
import CycleBench.Proofs.HostTime
import CycleBench.Proofs.SuiteCommand

/-!
Commands without what only looks on: the tracing of steps and the probe of a run. Two commands that
are the same without these end alike, on the same files and whatever is logged
(`Command.execute_alike`).
-/

namespace CycleBench

def Config.quiet (config : Config) : Config :=
  { config with traceSteps := false }

theorem Config.eq_of_quiet {config config' : Config} (h : config.quiet = config'.quiet) :
    config.maxSimTime = config'.maxSimTime ∧ config.reset = config'.reset :=
  ⟨(congrArg Config.maxSimTime h :), (congrArg Config.reset h :)⟩

theorem Config.validate_of_quiet {config config' : Config} (h : config.quiet = config'.quiet) :
    config.validate = config'.validate := by
  obtain ⟨hbound, hreset⟩ := Config.eq_of_quiet h
  unfold validate
  rw [hbound, hreset]

namespace Testbench

variable {bench bench' : Testbench}

theorem ofConfig_agree {config config' : Config} (h : config.quiet = config'.quiet) :
    Agree (fun bench bench' => bench.config.quiet = bench'.config.quiet)
      (ofConfig config) (ofConfig config') := by
  cases hbench : ofConfig config with
  | error failure =>
    have hvalidate := ofConfig_eq_error_iff.mp hbench
    rw [Config.validate_of_quiet h] at hvalidate
    rw [ofConfig_eq_error_iff.mpr hvalidate]
    exact .error failure
  | ok bench =>
    cases hbench' : ofConfig config' with
    | error failure =>
      have hvalidate := ofConfig_eq_error_iff.mp hbench'
      rw [← Config.validate_of_quiet h, ← ofConfig_eq_error_iff, hbench] at hvalidate
      cases hvalidate
    | ok bench' =>
      rw [← ofConfig_eq_ok_iff.mp hbench, ← ofConfig_eq_ok_iff.mp hbench'] at h
      exact .ok h

theorem finalTrap_of_quiet (h : bench.config.quiet = bench'.config.quiet) (program : Program) :
    bench.finalTrap program = bench'.finalTrap program := by
  obtain ⟨hbound, hreset⟩ := Config.eq_of_quiet h
  unfold finalTrap reset
  rw [hbound, hreset]

theorem outcomeOf_of_quiet (h : bench.config.quiet = bench'.config.quiet) :
    bench.outcomeOf = bench'.outcomeOf := by
  obtain ⟨hbound, hreset⟩ := Config.eq_of_quiet h
  funext trap
  simp only [outcomeOf, stateAt, reset, hbound, hreset]

theorem resultOf_of_quiet (h : bench.config.quiet = bench'.config.quiet) :
    bench.resultOf = bench'.resultOf := by
  obtain ⟨hbound, -⟩ := Config.eq_of_quiet h
  funext test
  simp only [resultOf, finalTrap_of_quiet h, hbound]

theorem runAndSave_agrees {S : Type} [FileSystem S]
    (h : bench.config.quiet = bench'.config.quiet) (append : Bool) (path : String)
    (tests : List SuiteCase) :
    Work.Agrees Eq (bench.runAndSave append path tests : Work (StateM S) SuiteReport)
      (bench'.runAndSave append path tests) := by
  unfold runAndSave
  refine Work.Agrees.get.bind fun log log' _ => ?_
  have hreport : (bench.runSuite tests log).1 = (bench'.runSuite tests log').1 := by
    rw [runSuite_fst, runSuite_fst, resultOf_of_quiet h]
  simp only [hreport, SuiteReport.saveTo_eq]
  refine (Work.Agrees.set _ _).bind fun _ _ _ => ?_
  exact (Work.Agrees.onFile _ _).bind fun _ _ _ => .pure rfl

end Testbench

namespace CommandLine

variable {S : Type} [FileSystem S]

namespace BenchOptions

def quiet (options : BenchOptions) : BenchOptions :=
  { options with traceSteps := false }

variable {options options' : BenchOptions}

theorem override_of_quiet (h : options.quiet = options'.quiet) (config : Config) :
    (options.override config).quiet = (options'.override config).quiet := by
  have hbound : options.maxSimTime = options'.maxSimTime := (congrArg BenchOptions.maxSimTime h :)
  have hwindow : options.resetWindow = options'.resetWindow := (congrArg BenchOptions.resetWindow h :)
  have hlow : options.activeLow = options'.activeLow := (congrArg BenchOptions.activeLow h :)
  simp only [Config.quiet, override, hbound, hwindow, hlow]

theorem settle_agree (h : options.quiet = options'.quiet) (s : S) :
    Agree (fun bench bench' => bench.config.quiet = bench'.config.quiet)
      (options.settle s) (options'.settle s) := by
  have hconfig : options.config = options'.config := (congrArg BenchOptions.config h :)
  have hstart : options.start s = options'.start s := by
    unfold start
    rw [hconfig]
  unfold settle
  rw [hstart]
  refine (Agree.refl _).bind ?_
  rintro config _ rfl
  exact Testbench.ofConfig_agree (override_of_quiet h config)

theorem testbench_agrees (h : options.quiet = options'.quiet) :
    Work.Agrees (fun bench bench' => bench.config.quiet = bench'.config.quiet)
      (options.testbench : Work (StateM S) Testbench) options'.testbench := by
  intro log log' s
  rw [on_testbench, on_testbench]
  exact ⟨settle_agree h s, rfl⟩

end BenchOptions

/-- Two replies that differ at most in what is masked, and if they show no time in nothing. -/
structure Reply.Alike (timed : Bool) (reply reply' : Reply) : Prop where
  passed : reply.passed = reply'.passed
  notice : reply.notice = reply'.notice
  masked : maskedLines reply.output = maskedLines reply'.output
  output : timed = false → reply.output = reply'.output

theorem Reply.Alike.refl (timed : Bool) (reply : Reply) : reply.Alike timed reply :=
  ⟨rfl, rfl, rfl, fun _ => rfl⟩

/-- The same for what is seen of two commands, apart from their logs. -/
structure Transcript.Alike (timed : Bool) (transcript transcript' : Transcript) : Prop where
  exit : transcript.exit = transcript'.exit
  notice : transcript.notice = transcript'.notice
  masked : maskedLines transcript.output = maskedLines transcript'.output
  output : timed = false → transcript.output = transcript'.output

namespace RunOptions

/-- Without a probe, and without tracing. -/
def quiet (options : RunOptions) : RunOptions :=
  { options with bench := options.bench.quiet, probe := false }

theorem reply_alike (options : RunOptions) (outcome : Outcome) (elapsed elapsed' : Option Nat) :
    Reply.Alike options.wantsStats (options.reply outcome elapsed)
      (options.reply outcome elapsed') where
  passed := rfl
  notice := rfl
  masked := (options.maskedLines_reply outcome elapsed).trans
    (options.maskedLines_reply outcome elapsed').symm
  output h := by
    simp only [reply, details, h, Bool.false_eq_true, if_false]

variable {options options' : RunOptions}

theorem reply_of_quiet (h : options.quiet = options'.quiet) : options.reply = options'.reply := by
  have hstats : options.stats = options'.stats := (congrArg RunOptions.stats h :)
  have hsections : options.sections = options'.sections := (congrArg RunOptions.sections h :)
  unfold reply details wantsStats
  rw [hstats, hsections]

/-- The probe is chosen, and the steps are logged, without a trace in what is said. -/
theorem perform_agrees (h : options.quiet = options'.quiet) :
    Work.Agrees (Reply.Alike options.wantsStats) (options.perform : Work (StateM S) Reply)
      options'.perform := by
  have hsections : options.sections = options'.sections := (congrArg RunOptions.sections h :)
  have hprogram : options.program = options'.program := (congrArg RunOptions.program h :)
  have hcheck : Agree Eq (StatsSection.check options.sections)
      (StatsSection.check options'.sections) := by
    rw [hsections]
    exact .refl _
  unfold perform
  refine (Work.Agrees.ofExcept hcheck).bind fun _ _ _ => ?_
  refine (BenchOptions.testbench_agrees (congrArg RunOptions.bench h)).bind
    fun bench bench' hbench => ?_
  have hdrive (log log' : Log) : (options.drive bench log).1 = (options'.drive bench' log').1 := by
    rw [drive_fst, drive_fst, hprogram, Testbench.finalTrap_of_quiet hbench,
      Testbench.outcomeOf_of_quiet hbench]
  refine Work.Agrees.get.bind fun log log' _ => ?_
  refine (Work.Agrees.timed (R := fun done done' => done.1 = done'.1) (hdrive log log')).bind ?_
  rintro ⟨⟨outcome, later⟩, elapsed⟩ ⟨⟨_, later'⟩, elapsed'⟩ rfl
  refine (Work.Agrees.set later later').bind fun _ _ _ => .pure ?_
  rw [← reply_of_quiet h]
  exact options.reply_alike outcome elapsed elapsed'

end RunOptions

namespace SuiteOptions

/-- Without tracing. -/
def quiet (options : SuiteOptions) : SuiteOptions :=
  { options with bench := options.bench.quiet }

variable {options options' : SuiteOptions}

omit [FileSystem S] in
theorem tests_agrees (h : options.quiet = options'.quiet) (manifest : Manifest) :
    Work.Agrees Eq (options.tests manifest : Work (StateM S) (List SuiteCase))
      (options'.tests manifest) := by
  have hselection : options.selection = options'.selection :=
    (congrArg SuiteOptions.selection h :)
  have hmanifest : options.manifest = options'.manifest := (congrArg SuiteOptions.manifest h :)
  unfold tests
  rw [hselection, hmanifest]
  refine (Work.Agrees.emit _ _).bind fun _ _ _ => ?_
  split
  · exact .throw _
  · exact .pure rfl

theorem runTests_agrees (h : options.quiet = options'.quiet) (tests : List SuiteCase) :
    Work.Agrees (Reply.Alike false) (options.runTests tests : Work (StateM S) Reply)
      (options'.runTests tests) := by
  have happend : options.append = options'.append := (congrArg SuiteOptions.append h :)
  have hout : options.out = options'.out := (congrArg SuiteOptions.out h :)
  unfold runTests
  split
  · exact .pure (.refl false _)
  · refine (BenchOptions.testbench_agrees (congrArg SuiteOptions.bench h :)).bind
      fun bench bench' hbench => ?_
    rw [happend, hout]
    refine (Testbench.runAndSave_agrees hbench _ _ tests).bind ?_
    rintro report _ rfl
    exact .pure (.refl false _)

theorem perform_agrees (h : options.quiet = options'.quiet) :
    Work.Agrees (Reply.Alike false) (options.perform : Work (StateM S) Reply)
      options'.perform := by
  have hmanifest : options.manifest = options'.manifest := (congrArg SuiteOptions.manifest h :)
  have hlist : options.list = options'.list := (congrArg SuiteOptions.list h :)
  unfold perform
  rw [hmanifest, hlist]
  refine (Work.Agrees.manifestFile _).bind ?_
  rintro manifest _ rfl
  split
  · exact .pure (.refl false _)
  · refine (tests_agrees h manifest).bind ?_
    rintro tests _ rfl
    exact runTests_agrees h tests

end SuiteOptions

namespace Command

/-- Without a probe, and without tracing. -/
def quiet : Command → Command
  | run options => run options.quiet
  | classify trap => classify trap
  | suite options => suite options.quiet

/-- Whether the output shows the time on the host. -/
def isTimed : Command → Bool
  | run options => options.wantsStats
  | classify _ | suite _ => false

variable {command command' : Command}

theorem perform_agrees (h : command.quiet = command'.quiet) :
    Work.Agrees (Reply.Alike command.isTimed) (command.perform : Work (StateM S) Reply)
      command'.perform := by
  cases command with
  | run options =>
    cases command' with
    | run options' => exact RunOptions.perform_agrees (Command.run.inj h)
    | classify trap => cases h
    | suite options' => cases h
  | classify trap =>
    cases command' with
    | run options' => cases h
    | classify trap' =>
      cases h
      exact .pure (.refl false _)
    | suite options' => cases h
  | suite options =>
    cases command' with
    | run options' => cases h
    | classify trap => cases h
    | suite options' => exact SuiteOptions.perform_agrees (Command.suite.inj h)

/-- Commands that are the same when quiet end alike and leave the same files, at whatever level
either logs. -/
theorem execute_alike (h : command.quiet = command'.quiet) (threshold threshold' : Threshold)
    (s : S) :
    let done := (command.execute threshold : StateM S Transcript) s
    let done' := (command'.execute threshold' : StateM S Transcript) s
    Transcript.Alike command.isTimed done.1 done'.1 ∧ done.2 = done'.2 := by
  obtain ⟨hresult, hfiles⟩ := perform_agrees h { threshold } { threshold := threshold' } s
  rcases hwork : (command.perform : Work (StateM S) Reply).on { threshold } s
    with ⟨⟨result, log⟩, s₁⟩
  rcases hwork' : (command'.perform : Work (StateM S) Reply).on { threshold := threshold' } s
    with ⟨⟨result', log'⟩, s₁'⟩
  rw [hwork, hwork'] at hresult hfiles
  simp only at hresult hfiles
  subst hfiles
  cases hresult with
  | error failure =>
    rw [execute_of_error command hwork, execute_of_error command' hwork']
    exact ⟨⟨rfl, rfl, rfl, fun _ => rfl⟩, rfl⟩
  | ok halike =>
    rw [execute_of_ok command hwork, execute_of_ok command' hwork', halike.passed]
    exact ⟨⟨rfl, halike.notice, halike.masked, halike.output⟩, rfl⟩

end Command

end CommandLine

end CycleBench
