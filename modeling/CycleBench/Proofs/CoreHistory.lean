import CycleBench.Model.Scripted
import CycleBench.Proofs.Calls
import Mathlib.Algebra.BigOperators.Intervals
import Mathlib.Data.Nat.Find

/-!
The scripted core as a function of its history. Between evaluations a core only remembers its
pins, so all it will ever show is decided by the pin levels at its evaluations:

* `eval_of_inReset`, `eval_of_active`: what one evaluation does, in and out of reset;
* `PinHistory`: the levels at the evaluations among any calls, the last evaluation in reset
  (`lastReset`) and the rising edges since then (`edgesAfter`);
* `drives_explainedBy`: driving calls lead a core from the one that its history explains to the
  one that the longer history explains;
* `core_explained_by_history`: so after any calls a new core counts the edges since its last
  evaluation in reset, and has trapped when there are enough of them.
-/

namespace CycleBench

theorem Polarity.isAsserted_level (polarity : Polarity) (asserted : Bool) :
    polarity.isAsserted (polarity.level asserted) = asserted := by
  cases polarity <;> cases asserted <;> rfl

/-! ## One evaluation -/

namespace ScriptedCore

/-- The edges counted when the core is evaluated out of reset. -/
def nextCycles (core : ScriptedCore) : Nat :=
  core.cycles + if core.lastClock = false ∧ core.clockPin = true then 1 else 0

/-- A latched trap shows the program's outputs and has had its cycles. -/
structure Sound (core : ScriptedCore) : Prop where
  outputs_eq : core.outputs = if core.trapped then core.program.trap else TrapRecord.idle
  latency_le : core.trapped = true → core.program.latency ≤ core.cycles

theorem Sound.outputs_of_trapped {core : ScriptedCore} (hs : core.Sound)
    (h : core.trapped = true) : core.outputs = core.program.trap :=
  hs.outputs_eq.trans (if_pos h)

/-- Nothing but the pins, the program and the polarity survives an evaluation in reset. -/
theorem eval_of_inReset (core : ScriptedCore) (h : core.inReset = true) :
    core.eval =
      { core with
        lastClock := core.clockPin
        cycles := 0
        trapped := false
        outputs := TrapRecord.idle } := by
  simp only [eval, inReset] at h ⊢
  rw [if_pos h]

theorem eval_of_active (core : ScriptedCore) (h : core.inReset = false) :
    core.eval = latch { core with lastClock := core.clockPin, cycles := core.nextCycles } := by
  unfold inReset at h
  simp only [eval, inReset, h, Bool.false_eq_true, ↓reduceIte, Clock.isRisingEdge, nextCycles]
  cases core.lastClock <;> cases core.clockPin <;> rfl

/-- Latching leaves a sound core trapped exactly when it has had its cycles. -/
theorem Sound.latch_eq {core : ScriptedCore} (hs : core.Sound) :
    core.latch =
      { core with
        trapped := decide (core.program.latency ≤ core.cycles)
        outputs :=
          if core.program.latency ≤ core.cycles then core.program.trap else TrapRecord.idle } := by
  obtain ⟨program, polarity, clockPin, resetPin, lastClock, cycles, trapped, outputs⟩ := core
  obtain ⟨houtputs, hlatency⟩ := hs
  simp only at houtputs hlatency
  subst houtputs
  by_cases hle : program.latency ≤ cycles
  · cases trapped <;> simp [latch, hle]
  · cases trapped with
    | false => simp [latch, hle]
    | true => exact absurd (hlatency rfl) hle

theorem Sound.with_nextCycles {core : ScriptedCore} (hs : core.Sound) (lastClock : Bool) :
    Sound { core with lastClock, cycles := core.nextCycles } :=
  ⟨hs.outputs_eq, fun h => Nat.le_trans (hs.latency_le h) (Nat.le_add_right _ _)⟩

end ScriptedCore

/-! ## Histories -/

/-- Levels of the two pins. -/
structure Pins where
  clock : Bool := false
  reset : Bool := false
deriving DecidableEq

/-- The pins now, and at each evaluation so far, the oldest first. -/
structure PinHistory where
  now : Pins := {}
  evals : List Pins := []

namespace PinHistory

def after (seen : PinHistory) : Drive → PinHistory
  | .setReset level => { seen with now.reset := level }
  | .setClock level => { seen with now.clock := level }
  | .eval => { seen with evals := seen.evals ++ [seen.now] }

/-- The history of calls that begin with both pins low. -/
def of (calls : List Drive) : PinHistory :=
  calls.foldl after {}

/-- The pins at the `i`-th evaluation, counted from one; at zero they are low. -/
def pinsAt (seen : PinHistory) : Nat → Pins
  | 0 => {}
  | i + 1 => seen.evals.getD i {}

/-- The number of the last evaluation in reset, or zero. -/
def lastReset (seen : PinHistory) (polarity : Polarity) : Nat :=
  Nat.findGreatest (fun i => 0 < i ∧ polarity.isAsserted (seen.pinsAt i).reset = true)
    seen.evals.length

/-- The evaluations after the `j`-th that find the clock high and the one before low. -/
def edgesAfter (seen : PinHistory) (j : Nat) : Finset Nat :=
  (Finset.Ioc j seen.evals.length).filter fun i =>
    (seen.pinsAt (i - 1)).clock = false ∧ (seen.pinsAt i).clock = true

variable {seen later : PinHistory} {polarity : Polarity}

/-! ## Longer histories -/

theorem pinsAt_of_extends (h : seen.evals <+: later.evals) {i : Nat} (hi : i ≤ seen.evals.length) :
    later.pinsAt i = seen.pinsAt i := by
  obtain ⟨tail, htail⟩ := h
  cases i with
  | zero => rfl
  | succ i =>
    simp only [pinsAt, ← htail, List.getD_eq_getElem?_getD]
    rw [List.getElem?_append_left (by omega)]

theorem lastReset_le (seen : PinHistory) (polarity : Polarity) :
    seen.lastReset polarity ≤ seen.evals.length :=
  Nat.findGreatest_le _

theorem isAsserted_lastReset (h : seen.lastReset polarity ≠ 0) :
    polarity.isAsserted (seen.pinsAt (seen.lastReset polarity)).reset = true :=
  (Nat.findGreatest_of_ne_zero (m := seen.lastReset polarity) rfl h).2

theorem not_isAsserted_of_lastReset_lt {i : Nat} (h : seen.lastReset polarity < i)
    (hi : i ≤ seen.evals.length) : polarity.isAsserted (seen.pinsAt i).reset = false := by
  have hnot := Nat.findGreatest_is_greatest h hi
  simpa [Nat.zero_lt_of_lt h] using hnot

/-- Evaluations out of reset do not move the last one in reset. -/
theorem lastReset_of_extends (h : seen.evals <+: later.evals)
    (hactive : ∀ i, seen.evals.length < i → i ≤ later.evals.length →
      polarity.isAsserted (later.pinsAt i).reset = false) :
    later.lastReset polarity = seen.lastReset polarity := by
  have hle := seen.lastReset_le polarity
  refine Nat.findGreatest_eq_iff.mpr ⟨Nat.le_trans hle h.length_le, fun hne => ?_, ?_⟩
  · rw [pinsAt_of_extends h hle]
    exact ⟨Nat.pos_of_ne_zero hne, isAsserted_lastReset hne⟩
  · rintro i hlt hi ⟨_, hasserted⟩
    have hfalse : polarity.isAsserted (later.pinsAt i).reset = false := by
      rcases Nat.lt_or_ge seen.evals.length i with hnew | hold
      · exact hactive i hnew hi
      · rw [pinsAt_of_extends h hold]
        exact not_isAsserted_of_lastReset_lt hlt hold
    rw [hfalse] at hasserted
    exact Bool.false_ne_true hasserted

/-- An edge that was counted stays counted. -/
theorem edgesAfter_subset (h : seen.evals <+: later.evals) (j : Nat) :
    seen.edgesAfter j ⊆ later.edgesAfter j := by
  intro i hi
  simp only [edgesAfter, Finset.mem_filter, Finset.mem_Ioc] at hi ⊢
  obtain ⟨⟨hj, hle⟩, hedge⟩ := hi
  rw [pinsAt_of_extends h hle, pinsAt_of_extends h (by omega)]
  exact ⟨⟨hj, Nat.le_trans hle h.length_le⟩, hedge⟩

/-! ## One more evaluation -/

theorem now_eval (seen : PinHistory) : (seen.after .eval).now = seen.now := rfl

theorem prefix_eval (seen : PinHistory) : seen.evals <+: (seen.after .eval).evals :=
  List.prefix_append _ _

theorem length_eval (seen : PinHistory) :
    (seen.after .eval).evals.length = seen.evals.length + 1 := by
  simp [after]

theorem pinsAt_eval (seen : PinHistory) :
    (seen.after .eval).pinsAt (seen.evals.length + 1) = seen.now := by
  simp [pinsAt, after]

theorem lastReset_eval_of_asserted (h : polarity.isAsserted seen.now.reset = true) :
    (seen.after .eval).lastReset polarity = seen.evals.length + 1 := by
  unfold lastReset
  rw [length_eval]
  exact Nat.findGreatest_eq ⟨Nat.succ_pos _, by rw [pinsAt_eval]; exact h⟩

theorem lastReset_eval_of_active (h : polarity.isAsserted seen.now.reset = false) :
    (seen.after .eval).lastReset polarity = seen.lastReset polarity := by
  apply lastReset_of_extends seen.prefix_eval
  intro i hlt hle
  rw [length_eval] at hle
  obtain rfl : i = seen.evals.length + 1 := by omega
  rw [pinsAt_eval]
  exact h

theorem edgesAfter_last (seen : PinHistory) : seen.edgesAfter seen.evals.length = ∅ := by
  simp [edgesAfter]

theorem card_edgesAfter_eval {j : Nat} (hj : j ≤ seen.evals.length) :
    ((seen.after .eval).edgesAfter j).card = (seen.edgesAfter j).card +
      if (seen.pinsAt seen.evals.length).clock = false ∧ seen.now.clock = true then 1 else 0 := by
  simp only [edgesAfter, Finset.card_filter, length_eval]
  rw [Finset.sum_Ioc_succ_top hj, Nat.add_sub_cancel, pinsAt_eval,
    pinsAt_of_extends seen.prefix_eval (Nat.le_refl _)]
  congr 1
  apply Finset.sum_congr rfl
  intro i hi
  have hle := (Finset.mem_Ioc.mp hi).2
  rw [pinsAt_of_extends seen.prefix_eval hle, pinsAt_of_extends seen.prefix_eval (by omega)]

end PinHistory

/-! ## The core that a history explains -/

/-- The core in which a history must have left a new one. -/
def PinHistory.core (seen : PinHistory) (program : Program) (polarity : Polarity) :
    ScriptedCore :=
  let j := seen.lastReset polarity
  let cycles := (seen.edgesAfter j).card
  let trapped := decide (j < seen.evals.length ∧ program.latency ≤ cycles)
  { program, polarity, cycles, trapped
    clockPin := seen.now.clock
    resetPin := seen.now.reset
    lastClock := (seen.pinsAt seen.evals.length).clock
    outputs := if trapped then program.trap else TrapRecord.idle }

namespace PinHistory

variable (seen : PinHistory) (program : Program) (polarity : Polarity)

theorem core_sound : (seen.core program polarity).Sound :=
  ⟨rfl, fun h => (of_decide_eq_true h).2⟩

theorem core_new : ({} : PinHistory).core program polarity = ScriptedCore.new program polarity := by
  simp [core, ScriptedCore.new, lastReset, edgesAfter, pinsAt]

/-- Each call takes the core of a history to the core of the longer history. -/
theorem apply_core (call : Drive) :
    call.apply (seen.core program polarity) = (seen.after call).core program polarity := by
  cases call with
  | setReset level => rfl
  | setClock level => rfl
  | eval =>
    change (seen.core program polarity).eval = _
    cases h : (seen.core program polarity).inReset with
    | true =>
      have hreset : (seen.after .eval).lastReset polarity = seen.evals.length + 1 :=
        lastReset_eval_of_asserted h
      have hnone : (seen.after .eval).edgesAfter (seen.evals.length + 1) = ∅ := by
        rw [← length_eval, edgesAfter_last]
      rw [ScriptedCore.eval_of_inReset _ h]
      simp [core, hreset, hnone, length_eval, pinsAt_eval, now_eval]
    | false =>
      have hle := seen.lastReset_le polarity
      have hreset : (seen.after .eval).lastReset polarity = seen.lastReset polarity :=
        lastReset_eval_of_active h
      have hcard := card_edgesAfter_eval hle
      rw [ScriptedCore.eval_of_active _ h,
        ((seen.core_sound program polarity).with_nextCycles _).latch_eq]
      simp [core, hreset, hcard, length_eval, pinsAt_eval, now_eval, ScriptedCore.nextCycles,
        Nat.lt_succ_of_le hle]

theorem drives_core (calls : List Drive) :
    drives calls (seen.core program polarity) =
      (calls.foldl after seen).core program polarity := by
  induction calls generalizing seen with
  | nil => rfl
  | cons call calls ih =>
    change drives calls (call.apply (seen.core program polarity)) = _
    rw [apply_core]
    exact ih (seen.after call)

theorem drives_new (calls : List Drive) :
    drives calls (ScriptedCore.new program polarity) = (of calls).core program polarity := by
  rw [← core_new, drives_core]
  rfl

theorem of_append (calls more : List Drive) : of (calls ++ more) = more.foldl after (of calls) :=
  List.foldl_append

/-! ## What further calls change -/

variable {seen program polarity} {later : PinHistory}

theorem prefix_foldl (seen : PinHistory) (calls : List Drive) :
    seen.evals <+: (calls.foldl after seen).evals := by
  induction calls generalizing seen with
  | nil => exact List.prefix_refl _
  | cons call calls ih =>
    have hcall : seen.evals <+: (seen.after call).evals := by
      cases call with
      | setReset level => exact List.prefix_refl _
      | setClock level => exact List.prefix_refl _
      | eval => exact seen.prefix_eval
    exact hcall.trans (ih (seen.after call))

theorem evals_foldl_of_not_mem (seen : PinHistory) {calls : List Drive}
    (h : Drive.eval ∉ calls) :
    (calls.foldl after seen).evals = seen.evals := by
  induction calls generalizing seen with
  | nil => rfl
  | cons call calls ih =>
    simp only [List.mem_cons, not_or] at h
    obtain ⟨hcall, hcalls⟩ := h
    rw [List.foldl_cons, ih _ hcalls]
    cases call with
    | setReset level => rfl
    | setClock level => rfl
    | eval => exact absurd rfl hcall

/-- Where the pins are now has no say in the outputs. -/
theorem outputs_core_congr (h : later.evals = seen.evals) :
    (later.core program polarity).outputs = (seen.core program polarity).outputs := by
  cases seen
  cases later
  cases h
  rfl

theorem trapped_core_iff :
    (seen.core program polarity).trapped = true ↔
      seen.lastReset polarity < seen.evals.length ∧
        program.latency ≤ (seen.core program polarity).cycles :=
  decide_eq_true_iff

/-- A latched trap outlasts evaluations out of reset. -/
theorem trapped_core_of_extends (h : seen.evals <+: later.evals)
    (hactive : ∀ i, seen.evals.length < i → i ≤ later.evals.length →
      polarity.isAsserted (later.pinsAt i).reset = false)
    (htrapped : (seen.core program polarity).trapped = true) :
    (later.core program polarity).trapped = true := by
  obtain ⟨hlt, hlatency⟩ := trapped_core_iff.mp htrapped
  have hreset := lastReset_of_extends h hactive
  have hcycles : (seen.core program polarity).cycles ≤ (later.core program polarity).cycles := by
    simp only [core, hreset]
    exact Finset.card_le_card (edgesAfter_subset h _)
  rw [trapped_core_iff, hreset]
  exact ⟨Nat.lt_of_lt_of_le hlt h.length_le, Nat.le_trans hlatency hcycles⟩

end PinHistory

/-- **History of a core.** The state of a core after any calls, from the pins at its evaluations:
the edges since the last evaluation in reset are its cycles, and with enough of them it has
trapped. The pins alone move no output, no edge in reset is ever counted, and a trap stays until
an evaluation in reset. -/
theorem core_explained_by_history (program : Program) (polarity : Polarity)
    (calls : List Drive) :
    let core := drives calls (ScriptedCore.new program polarity)
    let seen := PinHistory.of calls
    let k := seen.evals.length
    let j := seen.lastReset polarity
    let edges := (Finset.Ioc j k).filter fun i =>
      (seen.pinsAt (i - 1)).clock = false ∧ (seen.pinsAt i).clock = true
    core.cycles = edges.card ∧
    (core.trapped = true ↔ j < k ∧ program.latency ≤ core.cycles) ∧
    (Model.trapRecord core).1 =
      (if core.trapped then ⟨program.resultCode, program.causeCode⟩ else ⟨0, -1⟩) ∧
    core.program = program ∧
    (∀ more, Drive.eval ∉ more →
      (Model.trapRecord (drives more core)).1 = (Model.trapRecord core).1) ∧
    (∀ i ∈ edges, polarity.isAsserted (seen.pinsAt i).reset = false) ∧
    ∀ more, core.trapped = true →
      (∀ i, k < i → i ≤ (PinHistory.of (calls ++ more)).evals.length →
        polarity.isAsserted ((PinHistory.of (calls ++ more)).pinsAt i).reset = false) →
      (drives more core).trapped = true ∧
        (Model.trapRecord (drives more core)).1 = (Model.trapRecord core).1 := by
  intro core seen k j edges
  have hcore : core = seen.core program polarity := PinHistory.drives_new program polarity calls
  have hmore (more : List Drive) :
      drives more core = (more.foldl PinHistory.after seen).core program polarity := by
    rw [hcore, PinHistory.drives_core]
  have hsound : core.Sound := by rw [hcore]; exact seen.core_sound program polarity
  refine ⟨?_, ?_, ?_, ?_, ?_, ?_, ?_⟩
  · rw [hcore]; rfl
  · rw [hcore]; exact PinHistory.trapped_core_iff
  · have hprogram : core.program = program := by rw [hcore]; rfl
    rw [← hprogram]; exact hsound.outputs_eq
  · rw [hcore]; rfl
  · intro more hnone
    rw [hmore, hcore]
    exact PinHistory.outputs_core_congr (seen.evals_foldl_of_not_mem hnone)
  · intro i hi
    obtain ⟨hlt, hle⟩ := Finset.mem_Ioc.mp (Finset.mem_filter.mp hi).1
    exact PinHistory.not_isAsserted_of_lastReset_lt hlt hle
  · intro more htrapped hactive
    rw [PinHistory.of_append] at hactive
    rw [hmore, hcore]
    rw [hcore] at htrapped
    have hlater := PinHistory.trapped_core_of_extends (seen.prefix_foldl more) hactive htrapped
    refine ⟨hlater, ?_⟩
    exact ((PinHistory.core_sound _ _ _).outputs_of_trapped hlater).trans
      ((PinHistory.core_sound _ _ _).outputs_of_trapped htrapped).symm

/-- A pulse on the reset pin that no evaluation sees leaves a trap where it is. -/
theorem unseen_reset_pulse_keeps_trap :
    let core := drives [.setReset true, .setClock true, .eval, .setReset false, .setClock false,
      .eval, .setClock true, .eval] (ScriptedCore.new (.passing 1) .activeHigh)
    let pulse : List Drive := [.setReset true, .setClock false, .setReset false, .eval]
    core.trapped = true ∧ core.cycles = 1 ∧ (drives pulse core).trapped = true ∧
      (Model.trapRecord (drives pulse core)).1 = (Model.trapRecord core).1 := by
  intro core pulse
  have h := core_explained_by_history (.passing 1) .activeHigh [.setReset true, .setClock true,
    .eval, .setReset false, .setClock false, .eval, .setClock true, .eval]
  refine ⟨by decide, by decide, h.2.2.2.2.2.2 pulse (by decide) fun i hlt hle => ?_⟩
  obtain rfl : i = 4 := Nat.le_antisymm hle hlt
  rfl

end CycleBench
