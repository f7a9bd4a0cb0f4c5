import CycleBench.Proofs.CoreRun

/-!
The scripted core on a testbench of the opposite polarity. What the bench drives as reset such a
core takes for its release, so it works while the window lasts and is held in reset from then on:

* `inReset_driven_opposite`: the core is in reset exactly when the bench has released it;
* `crossedAt`, `drives_schedule_opposite`: so after any number of steps a new core is known in
  advance;
* `miswired_core_runs_in_window`: and with it how every run ends.
-/

namespace CycleBench

theorem Polarity.isAsserted_opposite_level (polarity : Polarity) (asserted : Bool) :
    polarity.opposite.isAsserted (polarity.level asserted) = !asserted := by
  cases polarity <;> cases asserted <;> rfl

namespace Testbench

/-- A core of the opposite polarity at time `n` of a run. From time zero it counts the edges of the
clock, and as soon as the window is over it has nothing left of them. -/
def crossedAt (bench : Testbench) (program : Program) (n : Nat) : ScriptedCore :=
  let cycles := if n ≤ bench.reset.window then (n + 1) / 2 else 0
  let trapped := decide (0 < n ∧ n ≤ bench.reset.window ∧ program.latency ≤ cycles)
  { program, cycles, trapped
    polarity := bench.reset.polarity.opposite
    clockPin := n % 2 = 1
    resetPin := bench.reset.level (n - 1)
    lastClock := n % 2 = 1
    outputs := if trapped then program.trap else TrapRecord.idle }

theorem crossedAt_sound (bench : Testbench) (program : Program) (n : Nat) :
    (bench.crossedAt program n).Sound :=
  ⟨rfl, fun h => (of_decide_eq_true h).2.2⟩

theorem inReset_driven_opposite (bench : Testbench) (t : Nat) {core : ScriptedCore}
    (hp : core.polarity = bench.reset.polarity.opposite) :
    (core.driven (bench.stepAt t)).inReset = decide (bench.reset.window ≤ t) := by
  change core.polarity.isAsserted (bench.reset.polarity.level (decide (t < bench.reset.window))) = _
  rw [hp, Polarity.isAsserted_opposite_level, ← decide_not]
  simp only [Nat.not_lt]

/-- Before the first step only the reset pin may be elsewhere, and the step sets it. -/
theorem driven_new (bench : Testbench) (program : Program) :
    (ScriptedCore.new program bench.reset.polarity.opposite).driven (bench.stepAt 0) =
      (bench.crossedAt program 0).driven (bench.stepAt 0) := by
  simp [ScriptedCore.driven, ScriptedCore.new, crossedAt]

theorem nextCycles_crossedAt (bench : Testbench) (program : Program) {t : Nat}
    (ht : t < bench.reset.window) :
    ((bench.crossedAt program t).driven (bench.stepAt t)).nextCycles = (t + 1 + 1) / 2 := by
  have hle : t ≤ bench.reset.window := Nat.le_of_lt ht
  rcases Nat.mod_two_eq_zero_or_one t with h | h <;>
    simp [ScriptedCore.nextCycles, ScriptedCore.driven, crossedAt, stepAt, hle, h] <;> omega

/-- Within the window the core works. -/
theorem apply_crossedAt_of_window (bench : Testbench) (program : Program) {t : Nat}
    (ht : t < bench.reset.window) :
    apply (bench.stepAt t) (bench.crossedAt program t) = bench.crossedAt program (t + 1) := by
  have hactive : ((bench.crossedAt program t).driven (bench.stepAt t)).inReset = false := by
    rw [bench.inReset_driven_opposite t rfl, decide_eq_false (by omega)]
  have hsound := (bench.crossedAt_sound program t).driven (bench.stepAt t)
  have hle : t + 1 ≤ bench.reset.window := ht
  rw [apply_scripted, ScriptedCore.eval_of_active _ hactive, (hsound.with_nextCycles _).latch_eq]
  simp only [bench.nextCycles_crossedAt program ht]
  simp [ScriptedCore.driven, crossedAt, hle, clock_stepAt, resetLevel_stepAt]

/-- After the window it is in reset. -/
theorem apply_crossedAt_of_released (bench : Testbench) (program : Program) {t : Nat}
    (ht : bench.reset.window ≤ t) :
    apply (bench.stepAt t) (bench.crossedAt program t) = bench.crossedAt program (t + 1) := by
  have hreset : ((bench.crossedAt program t).driven (bench.stepAt t)).inReset = true := by
    rw [bench.inReset_driven_opposite t rfl, decide_eq_true ht]
  have hlate : ¬ t + 1 ≤ bench.reset.window := by omega
  rw [apply_scripted, ScriptedCore.eval_of_inReset _ hreset]
  simp [ScriptedCore.driven, crossedAt, hlate, clock_stepAt, resetLevel_stepAt]

theorem apply_crossedAt (bench : Testbench) (program : Program) (t : Nat) :
    apply (bench.stepAt t) (bench.crossedAt program t) = bench.crossedAt program (t + 1) := by
  rcases Nat.lt_or_ge t bench.reset.window with hwindow | hreleased
  · exact bench.apply_crossedAt_of_window program hwindow
  · exact bench.apply_crossedAt_of_released program hreleased

theorem drives_schedule_opposite (bench : Testbench) (program : Program) {n : Nat} (hn : 0 < n) :
    drives (bench.schedule n) (ScriptedCore.new program bench.reset.polarity.opposite) =
      bench.crossedAt program n := by
  induction n, hn using Nat.le_induction with
  | base =>
    rw [schedule_succ]
    change apply (bench.stepAt 0) (ScriptedCore.new program _) = _
    rw [apply_scripted, driven_new, ← apply_scripted]
    exact bench.apply_crossedAt program 0
  | succ n hn ih =>
    rw [schedule_succ, drives_append, ih]
    exact bench.apply_crossedAt program n

/-! ## Whole runs -/

variable {π : Type} [Probe π]

theorem runWith_opposite (bench : Testbench) (program : Program) (probe : π) (log : Log) :
    let finished :=
      bench.runWith (ScriptedCore.new program bench.reset.polarity.opposite) probe log
    let last := bench.crossedAt program bench.config.maxSimTime
    finished.model = last ∧ finished.outcome.trap = last.outputs := by
  intro finished last
  have h := model_runWith unnoticed_readOnly bench
    (ScriptedCore.new program bench.reset.polarity.opposite) probe log
  rw [bench.drives_schedule_opposite program bench.maxSimTime_pos] at h
  obtain ⟨htrap, hmodel⟩ := Prod.mk.inj h
  exact ⟨hmodel, htrap⟩

theorem crossedAt_of_lt (bench : Testbench) (program : Program) {n : Nat}
    (h : bench.reset.window < n) :
    (bench.crossedAt program n).cycles = 0 ∧ (bench.crossedAt program n).trapped = false ∧
      (bench.crossedAt program n).outputs = TrapRecord.idle := by
  have hlate : ¬ n ≤ bench.reset.window := Nat.not_le.mpr h
  simp [crossedAt, hlate]

/-- Latencies zero and one come to the same, for the first edge comes with the first step. -/
theorem crossedAt_of_le (bench : Testbench) (program : Program) {n : Nat} (hn : 0 < n)
    (h : n ≤ bench.reset.window) :
    (bench.crossedAt program n).cycles = (n + 1) / 2 ∧
      ((bench.crossedAt program n).trapped = true ↔ 2 * (program.latency - 1) < n) ∧
      (bench.crossedAt program n).outputs =
        if 2 * (program.latency - 1) < n then program.trap else TrapRecord.idle := by
  have hcycles : (bench.crossedAt program n).cycles = (n + 1) / 2 := if_pos h
  have htrapped : (bench.crossedAt program n).trapped = true ↔
      2 * (program.latency - 1) < n := by
    have hcore : (bench.crossedAt program n).trapped = true ↔
        0 < n ∧ n ≤ bench.reset.window ∧ program.latency ≤ (bench.crossedAt program n).cycles :=
      decide_eq_true_iff
    rw [hcore, hcycles]
    omega
  refine ⟨hcycles, htrapped, ?_⟩
  rw [(bench.crossedAt_sound program n).outputs_eq]
  simp only [htrapped]
  rfl

/-- **A core with its reset crossed runs in the window alone.** If the run is longer than the
window, it ends with the core in reset, whatever the program; if not, the core has counted every
edge of the run, and has trapped if they were enough. So such a run passes only within the
window. -/
theorem miswired_core_runs_in_window (bench : Testbench) (program : Program) (probe : π)
    (log : Log) :
    let finished :=
      bench.runWith (ScriptedCore.new program bench.reset.polarity.opposite) probe log
    let bound := bench.config.maxSimTime
    let window := bench.reset.window
    (window < bound →
      finished.model.cycles = 0 ∧ finished.model.trapped = false ∧
      finished.outcome.trap = ⟨0, -1⟩ ∧ finished.outcome.verdict = .undefinedError) ∧
    (bound ≤ window →
      finished.model.cycles = (bound + 1) / 2 ∧
      (finished.model.trapped = true ↔ 2 * (program.latency - 1) < bound) ∧
      finished.outcome.trap =
        if 2 * (program.latency - 1) < bound then ⟨program.resultCode, program.causeCode⟩
        else ⟨0, -1⟩) ∧
    (finished.outcome.verdict = .pass → bound ≤ window) := by
  intro finished bound window
  obtain ⟨hmodel, htrap⟩ := bench.runWith_opposite program probe log
  have hlate : window < bound → finished.model.cycles = 0 ∧ finished.model.trapped = false ∧
      finished.outcome.trap = ⟨0, -1⟩ ∧ finished.outcome.verdict = .undefinedError := by
    intro h
    obtain ⟨hcycles, htrapped, houtputs⟩ := bench.crossedAt_of_lt program h
    have hidle : finished.outcome.trap = TrapRecord.idle := htrap.trans houtputs
    refine ⟨hmodel ▸ hcycles, hmodel ▸ htrapped, hidle, ?_⟩
    change TrapRecord.verdict finished.outcome.trap = _
    rw [hidle]
    rfl
  refine ⟨hlate, fun h => ?_, fun hpass => ?_⟩
  · obtain ⟨hcycles, htrapped, houtputs⟩ :=
      bench.crossedAt_of_le program bench.maxSimTime_pos h
    exact ⟨hmodel ▸ hcycles, hmodel ▸ htrapped, htrap.trans houtputs⟩
  · by_contra h
    obtain ⟨-, -, -, hverdict⟩ := hlate (Nat.not_le.mp h)
    rw [hverdict] at hpass
    exact Verdict.noConfusion hpass

/-- The outcome turns between a bound that is the window and one that is just beyond it. -/
example :
    let verdict := fun bound =>
      let bench : Testbench :=
        ⟨{ maxSimTime := bound + 1, reset := ⟨5, .activeLow⟩ }, bound.succ_pos, Nat.succ_pos 4⟩
      (bench.run (ScriptedCore.new (.passing 3) .activeHigh) { threshold := none }).outcome.verdict
    [verdict 3, verdict 4, verdict 5] = [.undefinedError, .pass, .undefinedError] := by decide

end Testbench

end CycleBench
