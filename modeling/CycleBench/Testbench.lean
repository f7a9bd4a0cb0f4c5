import CycleBench.Clock
import CycleBench.Config
import CycleBench.Probe
import CycleBench.Stats

/-!
The testbench: a bounded loop that drives reset, toggles the clock and evaluates a model once
per unit of simulated time, and samples the outputs of the model at the end.
-/

namespace CycleBench

/-- A configuration whose bounds are not zero. -/
structure Testbench where
  config : Config
  maxSimTime_pos : 0 < config.maxSimTime
  window_pos : 0 < config.reset.window

/-- Simulated time, the clock and the counters of a run. -/
structure LoopState where
  simTime : Nat := 0
  posedges : Nat := 0
  clock : Clock := {}
  stats : Stats := {}
deriving DecidableEq, Inhabited

namespace LoopState

/-- The state after a step: the clock has toggled and one unit of time has passed. -/
def advance (state : LoopState) (step : StepInfo) : LoopState :=
  let edge := if step.risingEdge then 1 else 0
  let active := if step.risingEdge && !step.resetAsserted then 1 else 0
  let reset := if step.resetAsserted then 1 else 0
  let simTime := state.simTime + 1
  let posedges := state.posedges + edge
  { simTime, posedges, clock := ⟨step.clock⟩
    stats := {
      simTime, posedges
      activePosedges := state.stats.activePosedges + active
      resetSteps := state.stats.resetSteps + reset } }

end LoopState

/-- A model on the bench with its probe, the loop state and the log. -/
structure Rig (σ π : Type) where
  state : LoopState := {}
  model : σ
  probe : π
  log : Log

/-- What a run ends with. -/
structure Outcome where
  simTime : Nat
  posedges : Nat
  trap : TrapRecord
  stats : Stats
deriving DecidableEq

def Outcome.verdict (outcome : Outcome) : Verdict :=
  outcome.trap.verdict

/-- A finished run: its outcome, and the model, the probe and the log as they were left. -/
structure Finished (σ π : Type) where
  outcome : Outcome
  model : σ
  probe : π
  log : Log

namespace Testbench

def ofConfig (config : Config) : Except Failure Testbench :=
  match h : config.validate with
  | .error failure => .error failure
  | .ok () =>
    .ok ⟨config, (Config.pos_of_validate h).1, (Config.pos_of_validate h).2⟩

def reset (bench : Testbench) : Reset :=
  bench.config.reset

/-- What the testbench drives in the step that begins in a state. -/
def drive (bench : Testbench) (state : LoopState) : StepInfo :=
  let asserted := bench.reset.isAsserted state.simTime
  { time := state.simTime
    clock := state.clock.step.level
    resetLevel := bench.reset.polarity.level asserted
    resetAsserted := asserted
    risingEdge := state.clock.risesNext }

/-- What the testbench reports about a step. -/
def events (bench : Testbench) (step : StepInfo) : List Event :=
  let released :=
    if step.time = bench.reset.window then
      [Event.resetReleased step.time bench.config.signals.reset]
    else []
  if bench.config.traceSteps then
    released ++ [Event.stepped step.time step.clock step.resetLevel]
  else released

variable {σ π : Type} [Model σ] [Probe π]

/-- Reset is driven first, then the clock, and then the model is evaluated. -/
@[inline]
def apply (step : StepInfo) (model : σ) : σ :=
  Model.eval (Model.setClock step.clock (Model.setReset step.resetLevel model))

/-- One unit of simulated time; the probe looks on after the evaluation. -/
@[specialize]
def step (bench : Testbench) : Rig σ π → Rig σ π
  | ⟨state, model, probe, log⟩ =>
    let info := bench.drive state
    let seen := (Probe.onStep info probe).run (apply info model)
    { state := state.advance info
      model := seen.2
      probe := seen.1.1
      log := (log.extend (bench.events info)).extend seen.1.2 }

@[specialize]
def steps (bench : Testbench) : Nat → Rig σ π → Rig σ π
  | 0, rig => rig
  | n + 1, rig => bench.steps n (bench.step rig)

def startEvent (bench : Testbench) : Event :=
  .runStarted bench.config.maxSimTime bench.reset.window bench.reset.polarity
    bench.config.signals.clock bench.config.signals.reset

/-- A whole run of a model under a probe, from time zero to the bound. -/
@[specialize]
def runWith (bench : Testbench) (model : σ) (probe : π) (log : Log) : Finished σ π :=
  let rig := bench.steps bench.config.maxSimTime
    { model, probe, log := log.emit bench.startEvent }
  let sample := Model.trapRecord rig.model
  { outcome := {
      simTime := rig.state.simTime
      posedges := rig.state.posedges
      trap := sample.1
      stats := rig.state.stats }
    model := sample.2
    probe := rig.probe
    log := rig.log.emit (.runFinished rig.state.simTime rig.state.posedges sample.1) }

/-- A whole run without a probe. -/
@[specialize]
def run (bench : Testbench) (model : σ) (log : Log) : Finished σ NoProbe :=
  bench.runWith model NoProbe.mk log

end Testbench

end CycleBench
