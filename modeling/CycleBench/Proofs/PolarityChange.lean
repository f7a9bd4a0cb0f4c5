import CycleBench.Model.Wrapped
import CycleBench.Proofs.Onlookers
import CycleBench.Proofs.SuiteCommand

/-!
Changing the polarity. A bench asks its polarity for the level of the reset pin and for nothing
else, and a core asks its own what such a level means:

* `Rig.Mirrors.step`, `Rig.Mirrors.steps`: behind an inverted reset pin a model goes on a bench of
  the opposite polarity as it goes on its own bench without one, step for step;
* `runWith_mirrored`: and so it does in a whole run;
* `coreAt_withPolarity`, `resultOf_withPolarity`: a core that shares the polarity of its bench
  works alike under every polarity;
* `polarity_is_transparent`: all of this together.
-/

namespace CycleBench

variable {σ π : Type} [Model σ] [Probe π]

theorem Polarity.level_opposite (polarity : Polarity) (asserted : Bool) :
    polarity.opposite.level asserted = !polarity.level asserted := by
  cases polarity <;> cases asserted <;> rfl

theorem passesReads_resetInverted : PassesReads (ResetInverted.mk : σ → ResetInverted σ) where
  resultCode _ := rfl
  causeCode _ := rfl
  trapRecord _ := rfl

/-- A probe that asks the same questions whatever the level of the reset pin is. -/
class LevelBlind (π : Type) [Probe π] : Prop where
  onStep_level : ∀ (info : StepInfo) (level : Bool) (probe : π),
    Probe.onStep { info with resetLevel := level } probe = Probe.onStep info probe

instance : LevelBlind NoProbe :=
  ⟨fun _ _ _ => rfl⟩

instance : LevelBlind ChangeTracer :=
  ⟨fun _ _ _ => rfl⟩

instance : LevelBlind VerdictSampler :=
  ⟨fun _ _ _ => rfl⟩

/-! ## Benches that differ in polarity -/

namespace Testbench

/-- The same bench with another polarity. -/
def withPolarity (bench : Testbench) (polarity : Polarity) : Testbench where
  config := { bench.config with reset := { bench.config.reset with polarity } }
  maxSimTime_pos := bench.maxSimTime_pos
  window_pos := bench.window_pos

theorem drive_withPolarity (bench : Testbench) (polarity : Polarity) (state : LoopState) :
    (bench.withPolarity polarity).drive state =
      { bench.drive state with
        resetLevel := polarity.level (bench.reset.isAsserted state.simTime) } := rfl

/-- The opposite polarity inverts the reset pin and changes nothing else. -/
theorem drive_withPolarity_opposite (bench : Testbench) (polarity : Polarity)
    (state : LoopState) :
    let info := (bench.withPolarity polarity).drive state
    (bench.withPolarity polarity.opposite).drive state =
      { info with resetLevel := !info.resetLevel } := by
  intro info
  simp only [info, drive_withPolarity, Polarity.level_opposite]

theorem apply_resetInverted (info : StepInfo) (model : σ) :
    apply { info with resetLevel := !info.resetLevel } (ResetInverted.mk model) =
      ⟨apply info model⟩ := by
  have hpin : Model.setReset (!info.resetLevel) (ResetInverted.mk model) =
      ⟨Model.setReset info.resetLevel model⟩ := by
    change ResetInverted.mk (Model.setReset (!(!info.resetLevel)) model) = _
    rw [Bool.not_not]
  simp only [apply, hpin]
  rfl

end Testbench

/-! ## Models behind an inverted pin -/

/-- The rigs agree in all but their logs, and but for the inverted reset pin in front of one of
the models. -/
structure Rig.Mirrors (rig' : Rig (ResetInverted σ) π) (rig : Rig σ π) : Prop where
  state_eq : rig'.state = rig.state
  model_eq : rig'.model = ⟨rig.model⟩
  probe_eq : rig'.probe = rig.probe

namespace Rig.Mirrors

variable {rig' : Rig (ResetInverted σ) π} {rig : Rig σ π}

theorem step [LevelBlind π] (h : rig'.Mirrors rig) (bench : Testbench) (polarity : Polarity) :
    ((bench.withPolarity polarity.opposite).step rig').Mirrors
      ((bench.withPolarity polarity).step rig) := by
  obtain ⟨state, model', probe, log'⟩ := rig'
  obtain ⟨_, model, _, log⟩ := rig
  obtain ⟨hstate, hmodel, hprobe⟩ := h
  simp only at hstate hmodel hprobe
  subst hstate hmodel hprobe
  let info := (bench.withPolarity polarity).drive state
  let info' := (bench.withPolarity polarity.opposite).drive state
  have hdrive : info' = { info with resetLevel := !info.resetLevel } :=
    bench.drive_withPolarity_opposite polarity state
  -- what the probe learns, and how it leaves the model
  have hlook : (Probe.onStep info' probe).run (Testbench.apply info' (ResetInverted.mk model)) =
      ((Probe.onStep info probe).run (Testbench.apply info model)).map id ResetInverted.mk := by
    rw [hdrive, LevelBlind.onStep_level, Testbench.apply_resetInverted,
      Observation.run_wrapped passesReads_resetInverted]
  exact ⟨rfl, congrArg Prod.snd hlook, congrArg (fun seen => seen.1.1) hlook⟩

theorem steps [LevelBlind π] (h : rig'.Mirrors rig) (bench : Testbench) (polarity : Polarity)
    (n : Nat) :
    ((bench.withPolarity polarity.opposite).steps n rig').Mirrors
      ((bench.withPolarity polarity).steps n rig) := by
  induction n generalizing rig' rig with
  | zero => exact h
  | succ n ih => exact ih (h.step bench polarity)

end Rig.Mirrors

namespace Testbench

theorem runWith_mirrored [LevelBlind π] (bench : Testbench) (polarity : Polarity) (model : σ)
    (probe : π) (log log' : Log) :
    let finished := (bench.withPolarity polarity).runWith model probe log
    let finished' := (bench.withPolarity polarity.opposite).runWith (ResetInverted.mk model) probe
      log'
    finished'.outcome = finished.outcome ∧ finished'.model.inner = finished.model ∧
      finished'.probe = finished.probe := by
  intro finished finished'
  let start : Rig σ π :=
    { model, probe, log := log.emit (bench.withPolarity polarity).startEvent }
  let start' : Rig (ResetInverted σ) π :=
    { model := ⟨model⟩, probe, log := log'.emit (bench.withPolarity polarity.opposite).startEvent }
  have hstart : start'.Mirrors start := ⟨rfl, rfl, rfl⟩
  obtain ⟨hstate, hmodel, hprobe⟩ := hstart.steps bench polarity bench.config.maxSimTime
  have hsample := congrArg Model.trapRecord hmodel
  rw [passesReads_resetInverted.trapRecord] at hsample
  refine ⟨?_, ?_, hprobe⟩
  · change Outcome.mk _ _ _ _ = Outcome.mk _ _ _ _
    congr 1
    · exact congrArg LoopState.simTime hstate
    · exact congrArg LoopState.posedges hstate
    · exact congrArg Prod.fst hsample
    · exact congrArg LoopState.stats hstate
  · exact congrArg (fun sample => sample.2.inner) hsample

/-! ## Cores of the bench's polarity -/

/-- The polarity stays within the core and on its reset pin. -/
theorem coreAt_withPolarity (bench : Testbench) (polarity : Polarity) (program : Program)
    (n : Nat) :
    (bench.withPolarity polarity).coreAt program n =
      { bench.coreAt program n with
        polarity, resetPin := (bench.withPolarity polarity).reset.level (n - 1) } := rfl

theorem resultOf_withPolarity (bench : Testbench) (polarity : Polarity) :
    (bench.withPolarity polarity).resultOf = bench.resultOf := rfl

/-- After any number of steps of a run, what a new core shows is free of the polarity. -/
theorem core_steps_withPolarity (bench : Testbench) (polarity : Polarity) (program : Program)
    (n : Nat) (probe : π) (log : Log) :
    let core := ((bench.withPolarity polarity).steps n
      { model := ScriptedCore.new program polarity, probe, log }).model
    core.cycles = (bench.coreAt program n).cycles ∧
      core.trapped = (bench.coreAt program n).trapped ∧
      core.outputs = (bench.coreAt program n).outputs := by
  intro core
  rcases Nat.eq_zero_or_pos n with rfl | hn
  · simp [core, steps, ScriptedCore.new, coreAt, stateAt]
  · have hcore : core = (bench.withPolarity polarity).coreAt program n :=
      (alike_steps_start alikeness_eq _ n _ probe log).trans (drives_schedule _ hn rfl)
    rw [hcore, coreAt_withPolarity]
    exact ⟨rfl, rfl, rfl⟩

/-- **Polarity is transparent.** A model on a bench that is active low goes as it goes, behind an
inverted reset pin, on the bench that is active high and otherwise the same: in a run, and step for
step from any loop state, under any probe that does not mind the level of the pin. A core that
shares the polarity of its bench counts, traps and shows its outputs alike under both, so a suite
has the same report. -/
theorem polarity_is_transparent (bench : Testbench) (model : σ) :
    let low := bench.withPolarity .activeLow
    let high := bench.withPolarity .activeHigh
    (∀ log log' : Log,
      let finished := low.run model log
      let finished' := high.run (ResetInverted.mk model) log'
      finished'.outcome = finished.outcome ∧ finished'.model.inner = finished.model) ∧
    (∀ (π : Type) [Probe π] [LevelBlind π] (n : Nat) (state : LoopState) (probe : π)
      (log log' : Log),
      let rig := low.steps n { state, model, probe, log }
      let rig' := high.steps n { state, model := ResetInverted.mk model, probe, log := log' }
      rig'.state = rig.state ∧ rig'.model.inner = rig.model ∧ rig'.probe = rig.probe) ∧
    (∀ (π : Type) [Probe π] (n : Nat) (program : Program) (probe : π) (log log' : Log),
      let rig := low.steps n { model := ScriptedCore.new program .activeLow, probe, log }
      let rig' :=
        high.steps n { model := ScriptedCore.new program .activeHigh, probe, log := log' }
      rig'.state = rig.state ∧ rig'.model.cycles = rig.model.cycles ∧
        rig'.model.trapped = rig.model.trapped ∧
        (Model.trapRecord rig'.model).1 = (Model.trapRecord rig.model).1) ∧
    ∀ (tests : List SuiteCase) (log log' : Log),
      (high.runSuite tests log').1 = (low.runSuite tests log).1 := by
  intro low high
  refine ⟨fun log log' => ?_, fun π _ _ n state probe log log' => ?_,
    fun π _ n program probe log log' => ?_, fun tests log log' => ?_⟩
  · obtain ⟨houtcome, hmodel, -⟩ := bench.runWith_mirrored .activeLow model NoProbe.mk log log'
    exact ⟨houtcome, hmodel⟩
  · have hstart : (Rig.mk state (ResetInverted.mk model) probe log').Mirrors
        (Rig.mk state model probe log) := ⟨rfl, rfl, rfl⟩
    obtain ⟨hstate, hmodel, hprobe⟩ := hstart.steps bench .activeLow n
    exact ⟨hstate, congrArg ResetInverted.inner hmodel, hprobe⟩
  · obtain ⟨hcycles, htrapped, houtputs⟩ :=
      bench.core_steps_withPolarity .activeLow program n probe log
    obtain ⟨hcycles', htrapped', houtputs'⟩ :=
      bench.core_steps_withPolarity .activeHigh program n probe log'
    intro rig rig'
    have hstate : rig.state = bench.stateAt n := low.state_steps_start n _ probe log
    have hstate' : rig'.state = bench.stateAt n := high.state_steps_start n _ probe log'
    exact ⟨hstate'.trans hstate.symm, hcycles'.trans hcycles.symm,
      htrapped'.trans htrapped.symm, houtputs'.trans houtputs.symm⟩
  · rw [runSuite_fst, runSuite_fst]
    simp only [high, low, resultOf_withPolarity]

end Testbench

end CycleBench
