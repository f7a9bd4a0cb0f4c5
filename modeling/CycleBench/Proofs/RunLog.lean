import CycleBench.Proofs.Looks
import CycleBench.Suite.Run

/-!
What runs report. A step reports what its bench has to say and then what the probe says
(`reported`), and a run begins with its settings and ends with its sample:

* `log_steps`, `log_runWith_eq_reported`: the log of any steps and of any run, whatever the model
  and the probe;
* `log_run`: without a probe it depends on nothing but the bench and the sample at the end;
* `log_runSuite`: a suite reports its cases one after the other;
* `run_log_complete`: the log of a run and of a suite, entry by entry, and what a less verbose log
  leaves out.
-/

namespace CycleBench

variable {σ π : Type} [Model σ] [Probe π]

/-! ## Levels -/

theorem Threshold.admits_iff (limit level : Level) :
    Threshold.admits (some limit) level = true ↔ level.rank ≤ limit.rank :=
  decide_eq_true_iff

theorem Level.rank_le_trace (level : Level) : level.rank ≤ Level.trace.rank := by
  cases level <;> decide

namespace Log

theorem extend_singleton (log : Log) (event : Event) : log.extend [event] = log.emit event :=
  rfl

/-- Of all that is reported a log with a limit keeps what is severe enough. -/
theorem toList_extend_of_limit (limit : Level) (before : Array Event) (events : List Event) :
    (extend { threshold := some limit, events := before } events).toList =
      before.toList ++ events.filter fun event => event.level.rank ≤ limit.rank :=
  toList_extend _ _

/-- The most verbose log keeps everything. -/
theorem toList_extend_trace (events : List Event) :
    (extend { threshold := some .trace } events).toList = events := by
  rw [toList_extend]
  exact List.filter_eq_self.mpr fun event _ =>
    (Threshold.admits_iff _ _).mpr (Level.rank_le_trace event.level)

end Log

/-! ## Events -/

/-- How an event stands in a log: its level, its message and its fields. -/
def Event.entry (event : Event) : Level × String × List (String × FieldValue) :=
  (event.level, event.message, event.fields)

def Event.isRelease (event : Event) : Bool :=
  event.message = "reset released"

/-- What a probe reports at a look. -/
def Look.told (look : Look) (probe : π) : List Event :=
  ((Probe.onStep look.info probe).run look.model).1.2

namespace Testbench

/-! ## Any run -/

/-- What the next step of a rig reports. -/
def reported (bench : Testbench) (rig : Rig σ π) : List Event :=
  bench.events (bench.drive rig.state) ++ (bench.look rig).told rig.probe

theorem log_step (bench : Testbench) (rig : Rig σ π) :
    (bench.step rig).log = rig.log.extend (bench.reported rig) := by
  rw [reported, Log.extend_append]
  rfl

theorem log_steps (bench : Testbench) (n : Nat) (rig : Rig σ π) :
    (bench.steps n rig).log =
      rig.log.extend ((List.range n).flatMap fun t => bench.reported (bench.steps t rig)) := by
  induction n with
  | zero => rfl
  | succ n ih =>
    rw [steps_succ_last, log_step, ih, ← Log.extend_append, List.range_succ, List.flatMap_append,
      List.flatMap_singleton]

/-- The rig at time `t` of a run. -/
def rigAt (bench : Testbench) (model : σ) (probe : π) (log : Log) (t : Nat) : Rig σ π :=
  bench.steps t { model, probe, log := log.emit bench.startEvent }

theorem drive_rigAt (bench : Testbench) (model : σ) (probe : π) (log : Log) (t : Nat) :
    bench.drive (bench.rigAt model probe log t).state = bench.stepAt t :=
  bench.drive_steps_start t model probe _

/-- The events of a run that ends with a sample: the settings, what its steps report, the end. -/
def runEvents (bench : Testbench) (steps : Nat → List Event) (trap : TrapRecord) : List Event :=
  bench.startEvent :: (List.range bench.config.maxSimTime).flatMap steps ++
    [.runFinished bench.config.maxSimTime ((bench.config.maxSimTime + 1) / 2) trap]

theorem log_runWith_eq_reported (bench : Testbench) (model : σ) (probe : π) (log : Log) :
    (bench.runWith model probe log).log =
      log.extend (bench.runEvents (fun t => bench.reported (bench.rigAt model probe log t))
        (bench.runWith model probe log).outcome.trap) := by
  have hsteps := bench.log_steps bench.config.maxSimTime
    { model, probe, log := log.emit bench.startEvent }
  rw [runEvents, Log.extend_append]
  change ((bench.steps _ _).log.emit (.runFinished _ _ _)) = Log.emit (Log.extend _ _) _
  rw [hsteps, state_steps_start]
  rfl

/-! ## A run without a probe -/

/-- The events of such a run. -/
def ownEvents (bench : Testbench) (trap : TrapRecord) : List Event :=
  bench.runEvents (fun t => bench.events (bench.stepAt t)) trap

theorem reported_rigAt_noProbe (bench : Testbench) (model : σ) (log : Log) (t : Nat) :
    bench.reported (bench.rigAt model NoProbe.mk log t) = bench.events (bench.stepAt t) := by
  rw [reported, drive_rigAt]
  exact List.append_nil _

/-- The outputs that are sampled at the end of a run without a probe. -/
def sampleOf (bench : Testbench) (model : σ) : TrapRecord :=
  (Model.trapRecord (bench.lastModel model)).1

theorem trap_run (bench : Testbench) (model : σ) (log : Log) :
    (bench.run model log).outcome.trap = bench.sampleOf model :=
  congrArg Prod.fst (model_runWith unnoticed_noProbe bench model NoProbe.mk log)

theorem log_run (bench : Testbench) (model : σ) (log : Log) :
    (bench.run model log).log =
      log.extend (bench.ownEvents (bench.sampleOf model)) := by
  have h := bench.log_runWith_eq_reported model NoProbe.mk log
  simp only [reported_rigAt_noProbe] at h
  rw [← bench.trap_run model log]
  exact h

/-! ## Suites -/

/-- What the run of a case reports. -/
def caseEvents (bench : Testbench) (test : SuiteCase) : List Event :=
  let trap := bench.sampleOf (bench.freshCore test.program)
  bench.ownEvents trap ++ [.caseFinished test.name trap.verdict]

theorem log_runCase (bench : Testbench) (test : SuiteCase) (log : Log) :
    (bench.runCase test log).2 = log.extend (bench.caseEvents test) := by
  have hverdict : (bench.run (bench.freshCore test.program) log).outcome.verdict =
      (bench.sampleOf (bench.freshCore test.program)).verdict :=
    congrArg TrapRecord.verdict (bench.trap_run _ log)
  rw [caseEvents, Log.extend_append, ← log_run, Log.extend_singleton, ← hverdict]
  rfl

theorem log_runCases (bench : Testbench) (tests : List SuiteCase) (results : Array CaseResult)
    (log : Log) :
    (bench.runCases tests results log).2 = log.extend (tests.flatMap bench.caseEvents) := by
  induction tests generalizing results log with
  | nil => rfl
  | cons test tests ih =>
    rw [runCases, ih, log_runCase, ← Log.extend_append, List.flatMap_cons]

theorem log_runSuite (bench : Testbench) (tests : List SuiteCase) (log : Log) :
    (bench.runSuite tests log).2 = log.extend (tests.flatMap bench.caseEvents) :=
  bench.log_runCases tests #[] log

/-! ## Releases of reset -/

theorem countP_release_events (bench : Testbench) (t : Nat) :
    (bench.events (bench.stepAt t)).countP Event.isRelease =
      if t = bench.reset.window then 1 else 0 := by
  by_cases h : t = bench.reset.window <;> cases htrace : bench.config.traceSteps <;>
    simp [events, stepAt, Event.isRelease, Event.message, h, htrace]

theorem sum_release (window bound : Nat) :
    ((List.range bound).map fun t => if t = window then 1 else 0).sum =
      if window < bound then 1 else 0 := by
  induction bound with
  | zero => rfl
  | succ bound ih =>
    rw [List.range_succ, List.map_append, List.sum_append, ih]
    -- the new last time can be the window's only if no time before it was
    rcases Nat.lt_trichotomy window bound with h | h | h
    · have hne : bound ≠ window := by omega
      have hlt : window < bound + 1 := by omega
      simp [h, hne, hlt]
    · simp [h]
    · have hne : bound ≠ window := by omega
      have hnot : ¬ window < bound := by omega
      have hnot' : ¬ window < bound + 1 := by omega
      simp [hne, hnot, hnot']

/-- Reset is released once in a run, if the run is long enough. -/
theorem countP_release_ownEvents (bench : Testbench) (trap : TrapRecord) :
    (bench.ownEvents trap).countP Event.isRelease =
      if bench.reset.window < bench.config.maxSimTime then 1 else 0 := by
  have hsteps : ((List.range bench.config.maxSimTime).flatMap
      fun t => bench.events (bench.stepAt t)).countP Event.isRelease =
      if bench.reset.window < bench.config.maxSimTime then 1 else 0 := by
    rw [List.countP_flatMap, ← sum_release]
    refine congrArg List.sum (List.map_congr_left fun t _ => ?_)
    exact bench.countP_release_events t
  have hstart : Event.isRelease bench.startEvent = false := by rfl
  rw [ownEvents, runEvents, List.cons_append, List.countP_cons_of_neg (by simp [hstart]),
    List.countP_append, hsteps]
  rfl

theorem countP_release_cases (bench : Testbench) (tests : List SuiteCase) :
    (tests.flatMap bench.caseEvents).countP Event.isRelease =
      if bench.reset.window < bench.config.maxSimTime then tests.length else 0 := by
  induction tests with
  | nil => simp
  | cons test tests ih =>
    have hcase : (bench.caseEvents test).countP Event.isRelease =
        if bench.reset.window < bench.config.maxSimTime then 1 else 0 := by
      rw [caseEvents, List.countP_append, countP_release_ownEvents]
      rfl
    rw [List.flatMap_cons, List.countP_append, hcase, ih, List.length_cons]
    split <;> omega

/-! ## The whole log -/

theorem toList_log_run (bench : Testbench) (model : σ) :
    let finished := bench.run model { threshold := some .trace }
    finished.log.toList = bench.ownEvents finished.outcome.trap := by
  intro finished
  have h := congrArg Log.toList (bench.log_run model { threshold := some .trace })
  rw [Log.toList_extend_trace] at h
  rw [bench.trap_run model { threshold := some .trace }]
  exact h

theorem entries_events (bench : Testbench) (t : Nat) :
    (bench.events (bench.stepAt t)).map Event.entry =
      (if t = bench.reset.window then
        [(.debug, "reset released",
          [("time", .number t), ("signal", .plain bench.config.signals.reset)])]
      else []) ++
      if bench.config.traceSteps then
        [(.trace, "step", [("time", .number t), ("clock", .flag (t % 2 = 0)),
          ("reset", .flag (bench.reset.polarity.level (t < bench.reset.window)))])]
      else [] := by
  by_cases h : t = bench.reset.window <;> cases htrace : bench.config.traceSteps <;>
    simp [events, stepAt, Event.entry, Event.level, Event.message, Event.fields, h, htrace]

/-- **The log of a run is complete.** Without a probe it is the settings of the bench, then for
every step in turn the release of reset, if it is that step's, and the step itself, if steps are
wanted, and then the end of the run with the sample. The log of a suite is that of its cases one
after the other, each with its verdict behind it, so reset is released once for each case that
goes on after its window. A less verbose log is what is severe enough of the whole. -/
theorem run_log_complete (bench : Testbench) :
    let bound := bench.config.maxSimTime
    let reset := bench.config.reset
    let signals := bench.config.signals
    let releases := fun events : List Event =>
      events.countP fun event => event.message = "reset released"
    (∀ (σ : Type) [Model σ] (model : σ),
      let finished := bench.run model { threshold := some .trace }
      let trap := finished.outcome.trap
      finished.log.toList.map Event.entry =
        (.info, "testbench run started",
          [("max_sim_time", .number bound), ("reset_window", .number reset.window),
            ("polarity", .plain reset.polarity.name), ("clock", .plain signals.clock),
            ("reset", .plain signals.reset)]) ::
        (List.range bound).flatMap (fun t =>
          (if t = reset.window then
            [(.debug, "reset released", [("time", .number t), ("signal", .plain signals.reset)])]
          else []) ++
          if bench.config.traceSteps then
            [(.trace, "step", [("time", .number t), ("clock", .flag (t % 2 = 0)),
              ("reset", .flag (reset.polarity.level (t < reset.window)))])]
          else []) ++
        [(.info, "testbench run finished",
          [("sim_time", .number bound), ("posedges", .number ((bound + 1) / 2 : Nat)),
            ("trap", .plain trap.text),
            ("verdict", .plain (classify trap.resultCode trap.causeCode).label)])] ∧
      releases finished.log.toList = (if reset.window < bound then 1 else 0) ∧
      ∀ (limit : Level) (before : Array Event),
        (bench.run model { threshold := some limit, events := before }).log.toList =
          before.toList ++
            finished.log.toList.filter fun event => event.level.rank ≤ limit.rank) ∧
    ∀ tests : List SuiteCase,
      let whole := (bench.runSuite tests { threshold := some .trace }).2.toList
      whole = tests.flatMap (fun test =>
        let finished := bench.run (bench.freshCore test.program) { threshold := some .trace }
        finished.log.toList ++ [.caseFinished test.name finished.outcome.verdict]) ∧
      releases whole = (if reset.window < bound then tests.length else 0) ∧
      ∀ (limit : Level) (before : Array Event),
        (bench.runSuite tests { threshold := some limit, events := before }).2.toList =
          before.toList ++ whole.filter fun event => event.level.rank ≤ limit.rank := by
  intro bound reset signals releases
  constructor
  · intro σ _ model finished trap
    have hlog : finished.log.toList = bench.ownEvents trap := bench.toList_log_run model
    refine ⟨?_, ?_, fun limit before => ?_⟩
    · rw [hlog, ownEvents, runEvents, List.map_append, List.map_cons, List.map_flatMap]
      simp only [entries_events]
      rfl
    · rw [hlog]
      exact bench.countP_release_ownEvents trap
    · rw [hlog, log_run, ← bench.trap_run model { threshold := some .trace }]
      exact Log.toList_extend_of_limit limit before _
  · intro tests whole
    have hwhole : whole = tests.flatMap bench.caseEvents := by
      have h := congrArg Log.toList (bench.log_runSuite tests { threshold := some .trace })
      rwa [Log.toList_extend_trace] at h
    refine ⟨?_, ?_, fun limit before => ?_⟩
    · refine hwhole.trans (List.flatMap_congr fun test _ => ?_)
      simp only [toList_log_run, caseEvents, Outcome.verdict, trap_run]
    · rw [hwhole]
      exact bench.countP_release_cases tests
    · rw [hwhole, log_runSuite]
      exact Log.toList_extend_of_limit limit before _

end Testbench

end CycleBench
