import CycleBench.Proofs.Onlookers

/-!
Looks of a probe, as data. A probe cannot tell who calls it, so all that it ever becomes is decided
by the looks it has had (`Look`, `shown`), at models of any kind. The steps of a testbench are such
looks (`probe_steps`), and what is driven in them is known beforehand (`infos_looks_start`).
-/

namespace CycleBench

/-- One look: what was driven in a step, and the model as it stands then. -/
structure Look : Type 1 where
  info : StepInfo
  {σ : Type}
  [isModel : Model σ]
  model : σ

attribute [instance] Look.isModel

variable {σ π : Type} [Model σ] [Probe π]

namespace Look

/-- The outputs that the model shows. -/
def trap (look : Look) : TrapRecord :=
  (Model.trapRecord look.model).1

/-- A probe after the look. -/
def after (look : Look) (probe : π) : π :=
  ((Probe.onStep look.info probe).run look.model).1.1

end Look

/-- A probe after looks in their order. -/
def shown (looks : List Look) (probe : π) : π :=
  looks.foldl (fun probe look => look.after probe) probe

theorem shown_append (first second : List Look) (probe : π) :
    shown (first ++ second) probe = shown second (shown first probe) :=
  List.foldl_append

namespace Testbench

/-- The looks of the probe of a rig in its next steps. -/
def looks (bench : Testbench) : Nat → Rig σ π → List Look
  | 0, _ => []
  | n + 1, rig =>
    { info := bench.drive rig.state, model := apply (bench.drive rig.state) rig.model } ::
      bench.looks n (bench.step rig)

theorem probe_steps (bench : Testbench) (n : Nat) (rig : Rig σ π) :
    (bench.steps n rig).probe = shown (bench.looks n rig) rig.probe := by
  induction n generalizing rig with
  | zero => rfl
  | succ n ih => exact ih (bench.step rig)

theorem infos_looks (bench : Testbench) (n : Nat) (rig : Rig σ π) :
    (bench.looks n rig).map Look.info =
      (List.range n).map fun t => bench.drive (bench.steps t rig).state := by
  induction n generalizing rig with
  | zero => rfl
  | succ n ih =>
    rw [List.range_succ_eq_map, List.map_cons, List.map_map, looks, List.map_cons, ih]
    rfl

theorem infos_looks_start (bench : Testbench) (n : Nat) (model : σ) (probe : π) (log : Log) :
    (bench.looks n { model, probe, log }).map Look.info = (List.range n).map bench.stepAt := by
  rw [infos_looks]
  simp only [drive_steps_start]

/-- The look that a step gives to the probe of a rig. -/
def look (bench : Testbench) (rig : Rig σ π) : Look :=
  { info := bench.drive rig.state, model := apply (bench.drive rig.state) rig.model }

theorem looks_eq_map (bench : Testbench) (n : Nat) (rig : Rig σ π) :
    bench.looks n rig = (List.range n).map fun t => bench.look (bench.steps t rig) := by
  induction n generalizing rig with
  | zero => rfl
  | succ n ih =>
    rw [List.range_succ_eq_map, List.map_cons, List.map_map, looks, ih]
    rfl

/-- The looks of a whole run. -/
def looksOf (bench : Testbench) (model : σ) (probe : π) (log : Log) : List Look :=
  bench.looks bench.config.maxSimTime { model, probe, log := log.emit bench.startEvent }

theorem probe_runWith_eq_shown (bench : Testbench) (model : σ) (probe : π) (log : Log) :
    (bench.runWith model probe log).probe = shown (bench.looksOf model probe log) probe :=
  bench.probe_steps _ _

theorem infos_looksOf (bench : Testbench) (model : σ) (probe : π) (log : Log) :
    (bench.looksOf model probe log).map Look.info =
      (List.range bench.config.maxSimTime).map bench.stepAt :=
  bench.infos_looks_start _ model probe _

end Testbench

end CycleBench
