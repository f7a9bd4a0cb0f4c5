import CycleBench.Proofs.CoreHistory
import CycleBench.Proofs.Schedule

/-!
The scripted core on a testbench that shares its polarity. Reset lasts for at least one step,
which leaves nothing of the core's past, so from any core and under any probe the core after
`n` steps is known in advance (`drives_schedule`): it has counted the active edges of the
bench. The step in which they reach the latency gives the time of the trap (`trapTime`), and
with it how every run ends (`core_traps_before_bound`).
-/

namespace CycleBench

theorem classify_eq_pass_iff (result cause : Int8) :
    classify result cause = .pass ↔ result = 0 ∧ (cause = 3 ∨ cause = 11) := by
  have hend : Cause.isTestEnd cause = true ↔ cause = 3 ∨ cause = 11 := by
    simp only [Cause.isTestEnd, Bool.or_eq_true, decide_eq_true_eq]
    exact Iff.rfl
  rw [← hend]
  unfold classify
  cases Cause.isTestEnd cause with
  | true =>
    by_cases hpass : result = 0
    · simp [hpass, TrapRecord.resultPass]
    · by_cases hfail : result = 1 <;>
        simp [hpass, hfail, TrapRecord.resultPass, TrapRecord.resultFail]
  | false =>
    -- a cause that ends no test gives a fault, and no fault is a pass
    simp only [Bool.false_eq_true, ↓reduceIte, and_false, iff_false]
    repeat' split
    all_goals exact Verdict.noConfusion

instance : ReadOnly ScriptedCore where
  resultCode_snd _ := rfl
  causeCode_snd _ := rfl
  trapRecord_snd _ := rfl

/-- The core with the levels of a step on its pins. -/
def ScriptedCore.driven (core : ScriptedCore) (step : StepInfo) : ScriptedCore :=
  { core with resetPin := step.resetLevel, clockPin := step.clock }

theorem ScriptedCore.Sound.driven {core : ScriptedCore} (hs : core.Sound) (step : StepInfo) :
    (core.driven step).Sound :=
  ⟨hs.outputs_eq, hs.latency_le⟩

namespace Testbench

theorem apply_scripted (step : StepInfo) (core : ScriptedCore) :
    apply step core = (core.driven step).eval := rfl

/-- The core at time `n` of a run, after at least one step. -/
def coreAt (bench : Testbench) (program : Program) (n : Nat) : ScriptedCore :=
  let cycles := (bench.stateAt n).stats.activePosedges
  let trapped := decide (bench.reset.window < n ∧ program.latency ≤ cycles)
  { program, cycles, trapped
    polarity := bench.reset.polarity
    clockPin := n % 2 = 1
    resetPin := bench.reset.level (n - 1)
    lastClock := n % 2 = 1
    outputs := if trapped then program.trap else TrapRecord.idle }

theorem coreAt_sound (bench : Testbench) (program : Program) (n : Nat) :
    (bench.coreAt program n).Sound :=
  ⟨rfl, fun h => (of_decide_eq_true h).2⟩

/-- The active edges stay at zero in reset and then grow with the rising edges. -/
theorem activePosedges_stateAt_succ (bench : Testbench) (n : Nat) :
    (bench.stateAt (n + 1)).stats.activePosedges =
      if n < bench.reset.window then 0
      else (bench.stateAt n).stats.activePosedges + if n % 2 = 0 then 1 else 0 := by
  change (n + 1 + 1) / 2 - (min (n + 1) bench.reset.window + 1) / 2 = ite _ 0
    ((n + 1) / 2 - (min n bench.reset.window + 1) / 2 + _)
  split
  · omega
  · split <;> omega

/-- A core of the bench's polarity reads from the reset pin what the bench means by it. -/
theorem inReset_driven (bench : Testbench) (t : Nat) {core : ScriptedCore}
    (hp : core.polarity = bench.reset.polarity) :
    (core.driven (bench.stepAt t)).inReset = decide (t < bench.reset.window) := by
  change core.polarity.isAsserted (bench.reset.polarity.level _) = _
  rw [hp, Polarity.isAsserted_level]

theorem resetLevel_stepAt (bench : Testbench) (t : Nat) :
    (bench.stepAt t).resetLevel = bench.reset.level t := rfl

/-- The clock is high at odd times, so a step at an even time raises it. -/
theorem clock_stepAt (bench : Testbench) (t : Nat) :
    (bench.stepAt t).clock = decide ((t + 1) % 2 = 1) := by
  simp only [stepAt, decide_eq_decide]
  omega

theorem nextCycles_driven (bench : Testbench) (program : Program) (t : Nat) :
    ((bench.coreAt program t).driven (bench.stepAt t)).nextCycles =
      (bench.stateAt t).stats.activePosedges + if t % 2 = 0 then 1 else 0 := by
  rcases Nat.mod_two_eq_zero_or_one t with h | h <;>
    simp [ScriptedCore.nextCycles, ScriptedCore.driven, coreAt, stepAt, h]

/-- A step in reset leaves nothing of the core's past. -/
theorem apply_stepAt_of_reset (bench : Testbench) {t : Nat} (ht : t < bench.reset.window)
    {core : ScriptedCore} (hp : core.polarity = bench.reset.polarity) :
    apply (bench.stepAt t) core = bench.coreAt core.program (t + 1) := by
  have hreset : (core.driven (bench.stepAt t)).inReset = true := by
    rw [bench.inReset_driven t hp, decide_eq_true ht]
  have hcycles := bench.activePosedges_stateAt_succ t
  rw [if_pos ht] at hcycles
  have hlate : ¬ bench.reset.window < t + 1 := by omega
  rw [apply_scripted, ScriptedCore.eval_of_inReset _ hreset]
  simp [ScriptedCore.driven, coreAt, hcycles, hlate, hp, clock_stepAt, resetLevel_stepAt]

/-- A step out of reset takes the core at time `t` to the core at time `t + 1`. -/
theorem apply_stepAt_of_active (bench : Testbench) {t : Nat} (ht : bench.reset.window ≤ t)
    (program : Program) :
    apply (bench.stepAt t) (bench.coreAt program t) = bench.coreAt program (t + 1) := by
  have hactive : ((bench.coreAt program t).driven (bench.stepAt t)).inReset = false := by
    rw [bench.inReset_driven t rfl, decide_eq_false (by omega)]
  have hcycles := bench.activePosedges_stateAt_succ t
  rw [if_neg (by omega), ← nextCycles_driven bench program] at hcycles
  have hlate : bench.reset.window < t + 1 := by omega
  have hsound := (bench.coreAt_sound program t).driven (bench.stepAt t)
  rw [apply_scripted, ScriptedCore.eval_of_active _ hactive, (hsound.with_nextCycles _).latch_eq]
  simp only [← hcycles]
  simp [ScriptedCore.driven, coreAt, hlate, clock_stepAt, resetLevel_stepAt]

/-- Driving any core of the bench's polarity, whatever its past. -/
theorem drives_schedule (bench : Testbench) {n : Nat} (hn : 0 < n) {core : ScriptedCore}
    (hp : core.polarity = bench.reset.polarity) :
    drives (bench.schedule n) core = bench.coreAt core.program n := by
  induction n, hn using Nat.le_induction with
  | base =>
    rw [schedule_succ]
    exact bench.apply_stepAt_of_reset bench.window_pos hp
  | succ n hn ih =>
    rw [schedule_succ, drives_append, ih]
    change apply (bench.stepAt n) (bench.coreAt core.program n) = _
    rcases Nat.lt_or_ge n bench.reset.window with hreset | hactive
    · exact bench.apply_stepAt_of_reset hreset rfl
    · exact bench.apply_stepAt_of_active hactive core.program

/-! ## The time of the trap -/

/-- The time of the step that latches the trap of a core with a latency. -/
def trapTime (window latency : Nat) : Nat :=
  if latency = 0 then window else 2 * ((window + 1) / 2 + latency - 1)

theorem trapped_coreAt_iff (bench : Testbench) (program : Program) (n : Nat) :
    (bench.coreAt program n).trapped = true ↔
      trapTime bench.reset.window program.latency < n := by
  have hcore : (bench.coreAt program n).trapped = true ↔ bench.reset.window < n ∧
      program.latency ≤ (n + 1) / 2 - (min n bench.reset.window + 1) / 2 := decide_eq_true_iff
  rw [hcore, trapTime]
  split <;> omega

theorem outputs_coreAt (bench : Testbench) (program : Program) (n : Nat) :
    (bench.coreAt program n).outputs =
      if trapTime bench.reset.window program.latency < n then program.trap
      else TrapRecord.idle := by
  rw [(bench.coreAt_sound program n).outputs_eq]
  simp only [trapped_coreAt_iff]
  rfl

variable {π : Type} [Probe π]

/-- A whole run of any core of the bench's polarity under any probe. -/
theorem runWith_core (bench : Testbench) {core : ScriptedCore}
    (hp : core.polarity = bench.reset.polarity) (probe : π) (log : Log) :
    (bench.runWith core probe log).model = bench.coreAt core.program bench.config.maxSimTime ∧
      (bench.runWith core probe log).outcome.trap =
        (bench.coreAt core.program bench.config.maxSimTime).outputs := by
  have h := model_runWith unnoticed_readOnly bench core probe log
  rw [bench.drives_schedule bench.maxSimTime_pos hp] at h
  obtain ⟨htrap, hmodel⟩ := Prod.mk.inj h
  exact ⟨hmodel, htrap⟩

/-- **A run ends trapped exactly when the trap comes before the bound.** A new core of the
bench's polarity, under any probe, ends with its program's outputs if so, and idle if not; a
passing verdict takes a trap in time. -/
theorem core_traps_before_bound (bench : Testbench) (program : Program) (probe : π) (log : Log) :
    let finished := bench.runWith (ScriptedCore.new program bench.reset.polarity) probe log
    let bound := bench.config.maxSimTime
    let time := trapTime bench.reset.window program.latency
    finished.outcome.trap =
      (if time < bound then ⟨program.resultCode, program.causeCode⟩ else ⟨0, -1⟩) ∧
    (finished.model.trapped = true ↔ time < bound) ∧
    (finished.outcome.verdict = .pass ↔
      time < bound ∧ program.resultCode = 0 ∧ (program.causeCode = 3 ∨ program.causeCode = 11)) ∧
    finished.outcome.verdict =
      if time < bound then classify program.resultCode program.causeCode
      else .undefinedError := by
  intro finished bound time
  have hpolarity : (ScriptedCore.new program bench.reset.polarity).polarity =
      bench.reset.polarity := rfl
  obtain ⟨hmodel, htrap⟩ := bench.runWith_core hpolarity probe log
  have houtputs : finished.outcome.trap = if time < bound then program.trap else TrapRecord.idle :=
    htrap.trans (bench.outputs_coreAt program bound)
  have hverdict : finished.outcome.verdict =
      if time < bound then classify program.resultCode program.causeCode
      else .undefinedError := by
    change TrapRecord.verdict finished.outcome.trap = _
    rw [houtputs, apply_ite TrapRecord.verdict]
    rfl
  refine ⟨houtputs, ?_, ?_, hverdict⟩
  · rw [hmodel]
    exact bench.trapped_coreAt_iff program bound
  · rw [hverdict, ← classify_eq_pass_iff]
    by_cases h : time < bound <;> simp [h]

/-- A window of three takes two rising edges: the latencies from zero to two. -/
example : [trapTime 3 0, trapTime 3 1, trapTime 3 2] = [3, 4, 6] := rfl

end Testbench

end CycleBench
