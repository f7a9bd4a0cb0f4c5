import CycleBench.Proofs.Sampling
import Mathlib.Data.List.Find
import Mathlib.Order.Bounds.Defs

/-!
When a sampler first sees the trap of a core. The trap, the samples and the bound of a run have
times of their own, and the first sample with the verdict of the program is where they meet:

* `look_core`, `trap_look_core`: what a core shows at each step of a run;
* `trap_of_mem_samples`: a sample is idle before the trap and shows it from then on;
* `mem_times_iff`: the times at which samples are taken;
* `sampler_sees_trap_first`: the first sample with the verdict is the first at or after the trap.
-/

namespace CycleBench

/-- In an ascending list the first hit is the least. -/
theorem find?_eq_some_iff_isLeast {times : List Nat} (h : times.Pairwise (· < ·))
    (p : Nat → Bool) (time : Nat) :
    times.find? p = some time ↔ IsLeast {t | t ∈ times ∧ p t = true} time := by
  constructor
  · intro hfind
    obtain ⟨hp, before, after, rfl, hbefore⟩ := List.find?_eq_some_iff_append.mp hfind
    refine ⟨⟨List.mem_append_right before List.mem_cons_self, hp⟩, ?_⟩
    rintro t ⟨ht, hpt⟩
    rcases List.mem_append.mp ht with hmem | hmem
    · have hno := hbefore t hmem
      simp [hpt] at hno
    · rcases List.mem_cons.mp hmem with rfl | hmem
      · exact Nat.le_refl t
      · have htail := (List.pairwise_append.mp h).2.1
        exact Nat.le_of_lt (List.rel_of_pairwise_cons htail hmem)
  · rintro ⟨⟨hmem, hp⟩, hleast⟩
    obtain ⟨before, after, rfl⟩ := List.append_of_mem hmem
    refine List.find?_eq_some_iff_append.mpr ⟨hp, before, after, rfl, fun t ht => ?_⟩
    have hlt : t < time := (List.pairwise_append.mp h).2.2 t ht time List.mem_cons_self
    by_contra hpt
    have hle := hleast ⟨List.mem_append_left _ ht, by simpa using hpt⟩
    omega

namespace Testbench

/-! ## What a core shows -/

theorem look_core {π : Type} [Probe π] (bench : Testbench) (t : Nat) {core : ScriptedCore}
    (hp : core.polarity = bench.reset.polarity) (probe : π) (log : Log) :
    bench.look (bench.steps t { model := core, probe, log }) =
      { info := bench.stepAt t, model := bench.coreAt core.program (t + 1) } := by
  have hcore : apply (bench.stepAt t) (drives (bench.schedule t) core) =
      bench.coreAt core.program (t + 1) := by
    have h := bench.drives_schedule (Nat.succ_pos t) hp
    rwa [schedule_succ, drives_append] at h
  rw [look, drive_steps_start, model_steps_start unnoticed_readOnly, hcore]

theorem trap_look_core (bench : Testbench) (program : Program) (info : StepInfo) (t : Nat) :
    Look.trap { info, model := bench.coreAt program (t + 1) } =
      if trapTime bench.reset.window program.latency ≤ t then program.trap
      else TrapRecord.idle := by
  have h : Look.trap { info, model := bench.coreAt program (t + 1) } =
      (bench.coreAt program (t + 1)).outputs := rfl
  rw [h, outputs_coreAt]
  simp only [Nat.lt_succ_iff]

end Testbench

namespace VerdictSampler

/-! ## What is sampled -/

theorem exists_look_of_mem_kept {period : Nat} {looks : List Look} {start : Nat}
    {sample : VerdictSample} (h : sample ∈ kept period (edgesFrom start looks)) :
    ∃ look ∈ looks, look.info.time = sample.time ∧ look.trap = sample.trap := by
  obtain ⟨edge, hedge, rfl⟩ := List.mem_map.mp h
  have hlook : edge.1 ∈ looks.filter (·.info.risingEdge) :=
    List.fst_mem_of_mem_zipIdx (List.mem_of_mem_filter hedge)
  exact ⟨edge.1, List.mem_of_mem_filter hlook, rfl, rfl⟩

variable (bench : Testbench) {core : ScriptedCore} (hp : core.polarity = bench.reset.polarity)
  (period : Nat) (log : Log)

include hp in
theorem trap_of_mem_samples {sample : VerdictSample}
    (h : sample ∈ (bench.runWith core (new period) log).probe.samples.toList) :
    sample.trap =
      if Testbench.trapTime bench.reset.window core.program.latency ≤ sample.time
      then core.program.trap else TrapRecord.idle := by
  rw [bench.probe_runWith_eq_shown, samples_shown_new] at h
  obtain ⟨look, hlook, htime, htrap⟩ := exists_look_of_mem_kept h
  rw [Testbench.looksOf, Testbench.looks_eq_map] at hlook
  obtain ⟨t, -, rfl⟩ := List.mem_map.mp hlook
  rw [bench.look_core t hp] at htime htrap
  rw [← htrap, ← htime]
  exact bench.trap_look_core core.program (bench.stepAt t) t

/-- Samples are taken at the multiples of the period that come before the bound. -/
theorem mem_times_iff {q bound : Nat} (hq : 0 < q) (time : Nat) :
    time ∈ (List.range' 1 ((bound + 1) / 2 / q)).map (fun k => 2 * (k * q - 1)) ↔
      (∃ k, 0 < k ∧ time = 2 * (k * q - 1)) ∧ time < bound := by
  constructor
  · intro h
    obtain ⟨k, hk, rfl⟩ := List.mem_map.mp h
    exact ⟨⟨k, (List.mem_range'_1.mp hk).1, rfl⟩, time_lt_of_mem hq hk⟩
  · rintro ⟨⟨k, hk, rfl⟩, hlt⟩
    have hmul : 0 < k * q := Nat.mul_pos hk hq
    have hle : k ≤ (bound + 1) / 2 / q := (Nat.le_div_iff_mul_le hq).mpr (by omega)
    exact List.mem_map.mpr ⟨k, List.mem_range'_1.mpr ⟨hk, by omega⟩, rfl⟩

theorem times_ascend {q : Nat} (hq : 0 < q) (count : Nat) :
    ((List.range' 1 count).map fun k => 2 * (k * q - 1)).Pairwise (· < ·) := by
  rw [List.pairwise_map]
  refine List.Pairwise.imp_of_mem (fun hk _ h => ?_) List.pairwise_lt_range'
  exact time_lt_time hq (List.mem_range'_1.mp hk).1 h

/-- If the samples with a verdict are those from some time on, the times alone say which of them
is first. -/
theorem first?_eq_find? {sampler : VerdictSampler} {verdict : Verdict} {start : Nat}
    (h : ∀ sample ∈ sampler.samples.toList, sample.verdict = verdict ↔ start ≤ sample.time) :
    sampler.first? verdict =
      (sampler.samples.toList.map (·.time)).find? (start ≤ ·) := by
  rw [first?, List.find?_map]
  refine congrArg (Option.map VerdictSample.time) (List.find?_congr fun sample hsample => ?_)
  simp [h sample hsample]

/-- **A sampler sees the trap at its first opportunity.** In a run of a core of the bench's
polarity every sample before the trap is idle, and every later one shows the trap and has the
verdict of the program. So the first sample with that verdict is the first that is taken at or
after the trap, and there is none if the bound comes before. -/
theorem sampler_sees_trap_first (bench : Testbench) {core : ScriptedCore}
    (hp : core.polarity = bench.reset.polarity) (period : Nat) (log : Log) :
    let q := max period 1
    let bound := bench.config.maxSimTime
    let trapTime := Testbench.trapTime bench.reset.window core.program.latency
    let verdict := classify core.program.resultCode core.program.causeCode
    let sampler := (bench.runWith core (new period) log).probe
    let chances : Set Nat :=
      {time | (∃ k, 0 < k ∧ time = 2 * (k * q - 1)) ∧ trapTime ≤ time ∧ time < bound}
    (verdict ≠ .undefinedError →
      (∀ time, sampler.first? verdict = some time ↔ IsLeast chances time) ∧
      (sampler.first? verdict = none ↔ chances = ∅)) ∧
    ∀ sample ∈ sampler.samples.toList,
      (sample.time < trapTime →
        sample.trap = ⟨0, -1⟩ ∧ sample.verdict = .undefinedError) ∧
      (trapTime ≤ sample.time →
        sample.trap = ⟨core.program.resultCode, core.program.causeCode⟩ ∧
        sample.verdict = verdict) ∧
      (sample.verdict = .undefinedError ∨ sample.verdict = verdict) := by
  intro q bound trapTime verdict sampler chances
  have hq : 0 < q := Nat.lt_of_lt_of_le Nat.zero_lt_one (Nat.le_max_right period 1)
  have hbefore : ∀ sample ∈ sampler.samples.toList, sample.time < trapTime →
      sample.trap = ⟨0, -1⟩ ∧ sample.verdict = .undefinedError := by
    intro sample hsample hlt
    have htrap := trap_of_mem_samples bench hp period log hsample
    rw [if_neg (Nat.not_le.mpr hlt)] at htrap
    refine ⟨htrap, ?_⟩
    rw [VerdictSample.verdict, htrap]
    rfl
  have hafter : ∀ sample ∈ sampler.samples.toList, trapTime ≤ sample.time →
      sample.trap = ⟨core.program.resultCode, core.program.causeCode⟩ ∧
        sample.verdict = verdict := by
    intro sample hsample hle
    have htrap := trap_of_mem_samples bench hp period log hsample
    rw [if_pos hle] at htrap
    refine ⟨htrap, ?_⟩
    rw [VerdictSample.verdict, htrap]
    rfl
  refine ⟨fun hverdict => ?_, fun sample hsample =>
    ⟨hbefore sample hsample, hafter sample hsample, ?_⟩⟩
  · have hsamples : ∀ sample ∈ sampler.samples.toList,
        sample.verdict = verdict ↔ trapTime ≤ sample.time := by
      intro sample hsample
      constructor
      · intro h
        by_contra hlt
        have hidle := (hbefore sample hsample (Nat.not_le.mp hlt)).2
        exact hverdict (h.symm.trans hidle)
      · exact fun hle => (hafter sample hsample hle).2
    have htimes : sampler.samples.toList.map (·.time) =
        (List.range' 1 ((bound + 1) / 2 / q)).map fun k => 2 * (k * q - 1) :=
      times_of_run bench period core log
    have hascend : (sampler.samples.toList.map (·.time)).Pairwise (· < ·) := by
      rw [htimes]
      exact times_ascend hq _
    have hfirst := first?_eq_find? hsamples
    have hchances : {t | t ∈ sampler.samples.toList.map (·.time) ∧
        decide (trapTime ≤ t) = true} = chances := by
      ext t
      rw [htimes]
      simp only [Set.mem_ofPred_eq, mem_times_iff hq, decide_eq_true_eq, chances]
      exact ⟨fun h => ⟨h.1.1, h.2, h.1.2⟩, fun h => ⟨⟨h.1, h.2.2⟩, h.2.1⟩⟩
    constructor
    · intro time
      rw [hfirst, find?_eq_some_iff_isLeast hascend, hchances]
    · rw [hfirst, ← hchances, List.find?_eq_none, Set.eq_empty_iff_forall_notMem]
      constructor
      · rintro h t ⟨ht, hle⟩
        exact h t ht hle
      · exact fun h t ht hle => h t ⟨ht, hle⟩
  · rcases Nat.lt_or_ge sample.time trapTime with hlt | hle
    · exact Or.inl (hbefore sample hsample hlt).2
    · exact Or.inr (hafter sample hsample hle).2

/-- A trap at time three falls between the samples at times two and six; what the core did before
the run does not matter. -/
theorem trap_between_samples :
    let bench : Testbench :=
      ⟨{ maxSimTime := 12, reset := ⟨3, .activeLow⟩ }, by decide, by decide⟩
    let core : ScriptedCore :=
      { program := .passing 0, polarity := .activeLow, lastClock := true, cycles := 7 }
    let sampler := (bench.runWith core (new 2) { threshold := none }).probe
    core.polarity = bench.reset.polarity ∧ sampler.first? .pass = some 6 := by
  intro bench core sampler
  have hp : core.polarity = bench.reset.polarity := rfl
  have hverdict : classify core.program.resultCode core.program.causeCode ≠ .undefinedError := by
    decide
  obtain ⟨hfirst, -⟩ := (sampler_sees_trap_first bench hp 2 { threshold := none }).1 hverdict
  refine ⟨hp, (hfirst 6).mpr ⟨⟨⟨2, by decide, rfl⟩, by decide, by decide⟩, ?_⟩⟩
  rintro time ⟨⟨k, -, rfl⟩, hle, -⟩
  change 3 ≤ 2 * (k * 2 - 1) at hle
  change 6 ≤ 2 * (k * 2 - 1)
  omega

/-- A run may pass when the last sample has been taken. -/
example :
    let bench : Testbench :=
      ⟨{ maxSimTime := 6, reset := ⟨1, .activeHigh⟩ }, by decide, by decide⟩
    let finished := bench.runWith (ScriptedCore.new (.passing 2) .activeHigh) (new 2)
      { threshold := none }
    finished.outcome.verdict = .pass ∧ finished.probe.first? .pass = none := by decide

end VerdictSampler

end CycleBench
