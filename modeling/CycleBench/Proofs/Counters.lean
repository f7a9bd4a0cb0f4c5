import CycleBench.Model.Scripted
import CycleBench.Testbench

/-!
Counters of a run. A step depends on the loop state alone, so the state after `n` steps has a
closed form in the state before them, whatever the model and the probe do:

* `simTime_steps`, `level_steps`, `posedges_steps`, `resetSteps_steps`, `activePosedges_steps`:
  one closed form for each counter, from any state, with the clock at either level;
* `drive_steps_start`: what a bench drives in the step at time `n` of a run;
* `counters_closed_form`: all counters together, after any number of steps and after a run.
-/

namespace CycleBench

attribute [ext] Clock Stats LoopState

/-! ## Rising edges -/

/-- Number of rising edges among the next `n` toggles of a clock at a level. -/
def risingEdges (level : Bool) (n : Nat) : Nat :=
  if level then n / 2 else (n + 1) / 2

@[simp]
theorem risingEdges_zero (level : Bool) : risingEdges level 0 = 0 := by
  cases level <;> rfl

/-- The toggle after `n` others rises exactly when those leave the clock low. -/
theorem risingEdges_succ (level : Bool) (n : Nat) :
    risingEdges level (n + 1) =
      risingEdges level n + if (level ^^ decide (n % 2 = 1)) then 0 else 1 := by
  rcases Nat.mod_two_eq_zero_or_one n with h | h <;> cases level <;>
    simp [risingEdges, h] <;> omega

theorem risingEdges_mono (level : Bool) {m n : Nat} (h : m ≤ n) :
    risingEdges level m ≤ risingEdges level n := by
  cases level
  · simp only [risingEdges, Bool.false_eq_true, ↓reduceIte]; omega
  · simp only [risingEdges, ↓reduceIte]; omega

/-- A step at time `t` is in reset exactly when `t` is below the window. -/
theorem Reset.isAsserted_iff (reset : Reset) (time : Nat) :
    reset.isAsserted time = true ↔ time < reset.window := by
  simp [Reset.isAsserted]

namespace Testbench

variable {σ π : Type} [Model σ] [Probe π]

/-! ## One step -/

theorem simTime_step (bench : Testbench) (rig : Rig σ π) :
    (bench.step rig).state.simTime = rig.state.simTime + 1 := rfl

theorem level_step (bench : Testbench) (rig : Rig σ π) :
    (bench.step rig).state.clock.level = !rig.state.clock.level := rfl

theorem posedges_step (bench : Testbench) (rig : Rig σ π) :
    (bench.step rig).state.posedges =
      rig.state.posedges + if rig.state.clock.level then 0 else 1 := by
  change _ + (if (bench.drive rig.state).risingEdge then 1 else 0) = _
  cases h : rig.state.clock.level <;>
    simp [drive, Clock.risesNext, Clock.isRisingEdge, Clock.step, Clock.toggle, h]

theorem resetSteps_step (bench : Testbench) (rig : Rig σ π) :
    (bench.step rig).state.stats.resetSteps =
      rig.state.stats.resetSteps + if rig.state.simTime < bench.reset.window then 1 else 0 := by
  change _ + (if bench.reset.isAsserted rig.state.simTime then 1 else 0) = _
  simp only [Reset.isAsserted_iff]

/-- In reset no edge is active; out of reset the active edges grow as all edges do. -/
theorem activePosedges_step (bench : Testbench) (rig : Rig σ π) :
    (bench.step rig).state.stats.activePosedges =
      rig.state.stats.activePosedges +
        if rig.state.simTime < bench.reset.window then 0
        else if rig.state.clock.level then 0 else 1 := by
  change _ + (if (bench.drive rig.state).risingEdge &&
    !bench.reset.isAsserted rig.state.simTime then 1 else 0) = _
  by_cases hw : rig.state.simTime < bench.reset.window <;> cases h : rig.state.clock.level <;>
    simp [drive, Clock.risesNext, Clock.isRisingEdge, Clock.step, Clock.toggle,
      Reset.isAsserted, h, hw]

/-! ## Many steps -/

theorem steps_succ_last (bench : Testbench) (n : Nat) (rig : Rig σ π) :
    bench.steps (n + 1) rig = bench.step (bench.steps n rig) := by
  induction n generalizing rig with
  | zero => rfl
  | succ n ih => exact ih (bench.step rig)

theorem simTime_steps (bench : Testbench) (n : Nat) (rig : Rig σ π) :
    (bench.steps n rig).state.simTime = rig.state.simTime + n := by
  induction n with
  | zero => rfl
  | succ n ih => rw [steps_succ_last, simTime_step, ih, Nat.add_assoc]

theorem level_steps (bench : Testbench) (n : Nat) (rig : Rig σ π) :
    (bench.steps n rig).state.clock.level =
      (rig.state.clock.level ^^ decide (n % 2 = 1)) := by
  induction n with
  | zero => simp [steps]
  | succ n ih =>
    rw [steps_succ_last, level_step, ih]
    rcases Nat.mod_two_eq_zero_or_one n with h | h <;> cases rig.state.clock.level <;>
      simp [h, Nat.add_mod]

theorem posedges_steps (bench : Testbench) (n : Nat) (rig : Rig σ π) :
    (bench.steps n rig).state.posedges =
      rig.state.posedges + risingEdges rig.state.clock.level n := by
  induction n with
  | zero => simp [steps]
  | succ n ih =>
    rw [steps_succ_last, posedges_step, ih, level_steps, risingEdges_succ, Nat.add_assoc]

theorem resetSteps_steps (bench : Testbench) (n : Nat) (rig : Rig σ π) :
    (bench.steps n rig).state.stats.resetSteps =
      rig.state.stats.resetSteps + min n (bench.reset.window - rig.state.simTime) := by
  induction n with
  | zero => simp [steps]
  | succ n ih =>
    rw [steps_succ_last, resetSteps_step, ih, simTime_steps]
    split <;> omega

/-- While reset lasts both sides stand still, and from then on `min n _` does. -/
theorem activePosedges_steps (bench : Testbench) (n : Nat) (rig : Rig σ π) :
    (bench.steps n rig).state.stats.activePosedges =
      rig.state.stats.activePosedges + risingEdges rig.state.clock.level n -
        risingEdges rig.state.clock.level
          (min n (bench.reset.window - rig.state.simTime)) := by
  induction n with
  | zero => simp [steps]
  | succ n ih =>
    have hstep := risingEdges_succ rig.state.clock.level n
    have hmono := risingEdges_mono rig.state.clock.level
      (Nat.min_le_left n (bench.reset.window - rig.state.simTime))
    rw [steps_succ_last, activePosedges_step, ih, simTime_steps, level_steps]
    by_cases hw : rig.state.simTime + n < bench.reset.window
    · have h : min n (bench.reset.window - rig.state.simTime) = n := by omega
      have h' : min (n + 1) (bench.reset.window - rig.state.simTime) = n + 1 := by omega
      rw [h, h', if_pos hw]
      omega
    · have h : min (n + 1) (bench.reset.window - rig.state.simTime) =
          min n (bench.reset.window - rig.state.simTime) := by omega
      rw [h, if_neg hw]
      omega

/-- Every step copies the time and the edges into the statistics. -/
theorem stats_mirror_steps (bench : Testbench) {n : Nat} (hn : 0 < n) (rig : Rig σ π) :
    (bench.steps n rig).state.stats.simTime = (bench.steps n rig).state.simTime ∧
      (bench.steps n rig).state.stats.posedges = (bench.steps n rig).state.posedges := by
  obtain ⟨k, rfl⟩ := Nat.exists_eq_add_of_le' hn
  rw [steps_succ_last]
  exact ⟨rfl, rfl⟩

/-! ## A run from its start -/

/-- The loop state at time `n` of a run. -/
def stateAt (bench : Testbench) (n : Nat) : LoopState :=
  { simTime := n
    posedges := (n + 1) / 2
    clock := ⟨n % 2 = 1⟩
    stats := {
      simTime := n
      posedges := (n + 1) / 2
      activePosedges := (n + 1) / 2 - (min n bench.reset.window + 1) / 2
      resetSteps := min n bench.reset.window } }

theorem state_steps_start (bench : Testbench) (n : Nat) (model : σ) (probe : π) (log : Log) :
    (bench.steps n { model, probe, log }).state = bench.stateAt n := by
  rcases Nat.eq_zero_or_pos n with rfl | hn
  · simp [steps, stateAt]
  obtain ⟨htime, hedges⟩ := bench.stats_mirror_steps hn { model, probe, log }
  ext
  · simp [simTime_steps, stateAt]
  · simp [posedges_steps, risingEdges, stateAt]
  · simp [level_steps, stateAt]
  · simp [htime, simTime_steps, stateAt]
  · simp [hedges, posedges_steps, risingEdges, stateAt]
  · simp [activePosedges_steps, risingEdges, stateAt]
  · simp [resetSteps_steps, stateAt]

/-- The outcome of a run that ends with a trap; all else in it is known beforehand. -/
def outcomeOf (bench : Testbench) (trap : TrapRecord) : Outcome :=
  let state := bench.stateAt bench.config.maxSimTime
  { simTime := state.simTime, posedges := state.posedges, trap, stats := state.stats }

theorem outcome_runWith (bench : Testbench) (model : σ) (probe : π) (log : Log) :
    (bench.runWith model probe log).outcome =
      bench.outcomeOf (bench.runWith model probe log).outcome.trap := by
  simp only [runWith, state_steps_start, outcomeOf]

/-- **Closed form of the counters.** After `n` steps from any loop state, `m` of them in reset;
at any time of a new run; and in the outcome of a run. The formulas name neither the polarity
nor the model nor the probe. -/
theorem counters_closed_form (bench : Testbench) {n : Nat} (hn : 0 < n) (rig : Rig σ π) :
    (let before := rig.state
     let after := (bench.steps n rig).state
     let edges := risingEdges before.clock.level
     let m := min n (bench.reset.window - before.simTime)
     after.simTime = before.simTime + n ∧
     after.clock.level = (before.clock.level ^^ decide (n % 2 = 1)) ∧
     after.posedges = before.posedges + edges n ∧
     after.stats.simTime = after.simTime ∧
     after.stats.posedges = after.posedges ∧
     after.stats.resetSteps = before.stats.resetSteps + m ∧
     after.stats.activePosedges = before.stats.activePosedges + edges n - edges m) ∧
    (∀ (t : Nat) (model : σ) (probe : π) (log : Log),
      (bench.steps t { model, probe, log }).state = bench.stateAt t) ∧
    ∀ (model : σ) (probe : π) (log : Log),
      let bound := bench.config.maxSimTime
      let window := bench.reset.window
      let outcome := (bench.runWith model probe log).outcome
      outcome.simTime = bound ∧
      outcome.posedges = (bound + 1) / 2 ∧
      outcome.stats.simTime = bound ∧
      outcome.stats.posedges = (bound + 1) / 2 ∧
      outcome.stats.resetSteps = min bound window ∧
      outcome.stats.activePosedges = (bound + 1) / 2 - (min bound window + 1) / 2 ∧
      outcome.posedges ≤ bound ∧
      outcome.stats.resetSteps ≤ bound ∧
      outcome.stats.activePosedges ≤ bound := by
  refine ⟨?_, bench.state_steps_start, ?_⟩
  · obtain ⟨htime, hedges⟩ := bench.stats_mirror_steps hn rig
    exact ⟨bench.simTime_steps n rig, bench.level_steps n rig, bench.posedges_steps n rig,
      htime, hedges, bench.resetSteps_steps n rig, bench.activePosedges_steps n rig⟩
  · intro model probe log bound window outcome
    have hpos : 0 < bound := bench.maxSimTime_pos
    have houtcome : outcome = bench.outcomeOf outcome.trap :=
      bench.outcome_runWith model probe log
    rw [houtcome]
    refine ⟨rfl, rfl, rfl, rfl, rfl, rfl, ?_, ?_, ?_⟩
    · change (bound + 1) / 2 ≤ bound
      omega
    · exact Nat.min_le_left bound window
    · change (bound + 1) / 2 - (min bound window + 1) / 2 ≤ bound
      omega

/-- Four steps from time one with the clock high: it falls and rises once in reset, and falls and
rises once out of it. -/
theorem counters_from_high_clock :
    let bench : Testbench := ⟨{ maxSimTime := 7, reset := { window := 3 } }, by decide, by decide⟩
    let rig : Rig ScriptedCore NoProbe :=
      { state := { simTime := 1, posedges := 5, clock := ⟨true⟩ }
        model := .new {} .activeHigh, probe := NoProbe.mk, log := { threshold := none } }
    let after := (bench.steps 4 rig).state
    0 < 4 ∧ after.simTime = 5 ∧ after.clock.level = true ∧ after.posedges = 7 ∧
      after.stats.resetSteps = 2 ∧ after.stats.activePosedges = 1 := by
  intro bench rig after
  obtain ⟨htime, hlevel, hedges, -, -, hreset, hactive⟩ :=
    (counters_closed_form bench (by decide : 0 < 4) rig).1
  have hone : 0 + risingEdges true 4 - risingEdges true (min 4 (3 - 1)) = 1 := by decide
  exact ⟨by decide, htime, hlevel, hedges, hreset, hactive.trans hone⟩

end Testbench

end CycleBench
