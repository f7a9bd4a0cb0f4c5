import CycleBench.Proofs.Looks
import Mathlib.Data.Nat.Basic

/-!
Samples of verdicts. A sampler numbers the rising edges that it is shown, over all the runs that it
looks on at, and keeps the outputs at the multiples of its period:

* `after_of_falling`, `after_of_rising`: what one look does to a sampler;
* `samples_shown`: the samples after any looks, at any models;
* `times_of_run`: in one run the edges come at even times, so the samples are evenly spaced;
* `samples_every_period`: both, for every period.
-/

namespace CycleBench

/-- The multiples of `q` among the first numbers. -/
theorem filter_dvd_range' (q n : Nat) :
    (List.range' 1 n).filter (q ∣ ·) = (List.range' 1 (n / q)).map (· * q) := by
  induction n with
  | zero => simp
  | succ n ih =>
    rw [List.range'_1_concat, List.filter_append, ih, Nat.succ_div]
    by_cases h : q ∣ n + 1
    · have hn : 1 + n = (1 + n / q) * q := by
        have hdiv := Nat.succ_div_of_dvd h
        have hmul := Nat.div_mul_cancel h
        rw [hdiv] at hmul
        rw [Nat.add_comm 1 (n / q), hmul, Nat.add_comm]
      have hdvd : q ∣ 1 + n := by rwa [Nat.add_comm]
      rw [if_pos h, List.range'_1_concat, List.map_append, List.filter_cons_of_pos (by simpa using hdvd)]
      simp [← hn]
    · have hdvd : ¬ q ∣ 1 + n := by rwa [Nat.add_comm]
      simp [h, hdvd]

theorem filter_even_range (n : Nat) :
    (List.range n).filter (· % 2 = 0) = (List.range ((n + 1) / 2)).map (2 * ·) := by
  induction n with
  | zero => rfl
  | succ n ih =>
    rw [List.range_succ, List.filter_append, ih]
    rcases Nat.mod_two_eq_zero_or_one n with h | h
    · have hn : (n + 1 + 1) / 2 = (n + 1) / 2 + 1 := by omega
      have hlast : 2 * ((n + 1) / 2) = n := by omega
      rw [hn, List.range_succ, List.map_append]
      simp [h, hlast]
    · have hn : (n + 1 + 1) / 2 = (n + 1) / 2 := by omega
      rw [hn]
      simp [h]

namespace VerdictSampler

/-! ## One look -/

theorem after_of_falling {look : Look} (h : look.info.risingEdge = false)
    (sampler : VerdictSampler) : look.after sampler = sampler := by
  simp [Look.after, Probe.onStep, h, Observation.run]

/-- A rising edge is counted, and it gives a sample when the count is a multiple of the period. -/
theorem after_of_rising {look : Look} (h : look.info.risingEdge = true)
    (sampler : VerdictSampler) :
    (look.after sampler).period = sampler.period ∧
      (look.after sampler).edges = sampler.edges + 1 ∧
      (look.after sampler).samples.toList = sampler.samples.toList ++
        if sampler.period ∣ sampler.edges + 1 then [⟨look.info.time, look.trap⟩] else [] := by
  by_cases hdue : sampler.period ∣ sampler.edges + 1
  · have hmod := Nat.mod_eq_zero_of_dvd hdue
    simp [Look.after, Probe.onStep, h, hdue, hmod, Observation.trap, Observation.map,
      Observation.run, Look.trap]
  · have hmod : ¬ (sampler.edges + 1) % sampler.period = 0 := fun hmod =>
      hdue (Nat.dvd_of_mod_eq_zero hmod)
    simp [Look.after, Probe.onStep, h, hdue, hmod, Observation.run]

/-! ## Many looks -/

/-- The looks at rising edges, each with its number, the first of them numbered `start`. -/
def edgesFrom (start : Nat) (looks : List Look) : List (Look × Nat) :=
  (looks.filter (·.info.risingEdge)).zipIdx start

/-- What is kept of the looks at rising edges. -/
def kept (period : Nat) (edges : List (Look × Nat)) : List VerdictSample :=
  (edges.filter (period ∣ ·.2)).map fun edge => ⟨edge.1.info.time, edge.1.trap⟩

theorem samples_shown (looks : List Look) (sampler : VerdictSampler) :
    (shown looks sampler).samples.toList =
      sampler.samples.toList ++
        kept sampler.period (edgesFrom (sampler.edges + 1) looks) := by
  induction looks generalizing sampler with
  | nil => simp [shown, kept, edgesFrom]
  | cons look looks ih =>
    change (shown looks (look.after sampler)).samples.toList = _
    rw [ih]
    cases h : look.info.risingEdge with
    | false =>
      rw [after_of_falling h, edgesFrom, edgesFrom, List.filter_cons_of_neg (by simp [h])]
    | true =>
      obtain ⟨hperiod, hedges, hsamples⟩ := after_of_rising h sampler
      rw [hperiod, hedges, hsamples, List.append_assoc, edgesFrom, edgesFrom,
        List.filter_cons_of_pos (by simp [h]), List.zipIdx_cons]
      by_cases hdue : sampler.period ∣ sampler.edges + 1 <;> simp [kept, hdue]

theorem samples_shown_new (period : Nat) (looks : List Look) :
    (shown looks (new period)).samples.toList = kept (max period 1) (edgesFrom 1 looks) :=
  samples_shown looks (new period)

/-! ## First samples -/

theorem first?_eq_some_iff {sampler : VerdictSampler} {verdict : Verdict} {time : Nat} :
    sampler.first? verdict = some time ↔ ∃ before sample after,
      sampler.samples.toList = before ++ sample :: after ∧ sample.verdict = verdict ∧
        sample.time = time ∧ ∀ other ∈ before, other.verdict ≠ verdict := by
  simp only [first?, Option.map_eq_some_iff, List.find?_eq_some_iff_append, decide_eq_true_eq,
    Bool.not_eq_true', decide_eq_false_iff_not]
  constructor
  · rintro ⟨sample, ⟨hverdict, before, after, hsamples, hbefore⟩, htime⟩
    exact ⟨before, sample, after, hsamples, hverdict, htime, hbefore⟩
  · rintro ⟨before, sample, after, hsamples, hverdict, htime, hbefore⟩
    exact ⟨sample, ⟨hverdict, before, after, hsamples, hbefore⟩, htime⟩

theorem first?_eq_none_iff {sampler : VerdictSampler} {verdict : Verdict} :
    sampler.first? verdict = none ↔
      ∀ sample ∈ sampler.samples.toList, sample.verdict ≠ verdict := by
  simp [first?]

/-! ## One run -/

theorem times_kept (period : Nat) {looks : List Look} {count : Nat}
    (h : (looks.filter (·.info.risingEdge)).map (·.info.time) = (List.range count).map (2 * ·)) :
    (kept period (edgesFrom 1 looks)).map (·.time) =
      (List.range' 1 (count / period)).map fun k => 2 * (k * period - 1) := by
  -- the `i`-th edge, counted from one, comes at time `2 * (i - 1)`
  have hedges : (edgesFrom 1 looks).map (fun edge => (edge.1.info.time, edge.2)) =
      (List.range' 1 count).map fun i => (2 * (i - 1), i) := by
    have hzip : (edgesFrom 1 looks).map (fun edge => (edge.1.info.time, edge.2)) =
        ((looks.filter (·.info.risingEdge)).map (·.info.time)).zipIdx 1 := by
      rw [List.zipIdx_map]
      rfl
    rw [hzip, h, List.zipIdx_eq_zip_range', List.range'_eq_map_range, List.range'_eq_map_range,
      List.length_map, List.length_range, List.zip_map', List.map_map]
    refine List.map_congr_left fun j _ => ?_
    simp
  calc (kept period (edgesFrom 1 looks)).map (·.time)
    _ = (((edgesFrom 1 looks).map fun edge => (edge.1.info.time, edge.2)).filter
          (period ∣ ·.2)).map Prod.fst := by
      rw [kept, List.filter_map, List.map_map, List.map_map]
      rfl
    _ = ((List.range' 1 count).filter (period ∣ ·)).map fun i => 2 * (i - 1) := by
      rw [hedges, List.filter_map, List.map_map]
      rfl
    _ = (List.range' 1 (count / period)).map fun k => 2 * (k * period - 1) := by
      rw [filter_dvd_range', List.map_map]
      rfl

/-- The rising edges of a run come at the even times. -/
theorem times_edges_looksOf {σ π : Type} [Model σ] [Probe π] (bench : Testbench) (model : σ)
    (probe : π) (log : Log) :
    ((bench.looksOf model probe log).filter (·.info.risingEdge)).map (·.info.time) =
      (List.range ((bench.config.maxSimTime + 1) / 2)).map (2 * ·) := by
  calc ((bench.looksOf model probe log).filter (·.info.risingEdge)).map (·.info.time)
    _ = (((bench.looksOf model probe log).map Look.info).filter (·.risingEdge)).map (·.time) := by
      rw [List.filter_map, List.map_map]
      rfl
    _ = (((List.range bench.config.maxSimTime).map bench.stepAt).filter (·.risingEdge)).map
          (·.time) := by
      rw [bench.infos_looksOf]
    _ = ((List.range bench.config.maxSimTime).filter (· % 2 = 0)).map id := by
      rw [List.filter_map, List.map_map]
      rfl
    _ = (List.range ((bench.config.maxSimTime + 1) / 2)).map (2 * ·) := by
      rw [List.map_id, filter_even_range]

theorem times_of_run {σ : Type} [Model σ] (bench : Testbench) (period : Nat) (model : σ)
    (log : Log) :
    (bench.runWith model (new period) log).probe.samples.toList.map (·.time) =
      (List.range' 1 ((bench.config.maxSimTime + 1) / 2 / max period 1)).map
        fun k => 2 * (k * max period 1 - 1) := by
  rw [bench.probe_runWith_eq_shown, samples_shown_new]
  exact times_kept _ (times_edges_looksOf bench model _ log)

/-- The `k`-th multiple of the period is one of the edges of the run. -/
theorem time_lt_of_mem {bound period k : Nat} (hperiod : 0 < period)
    (hk : k ∈ List.range' 1 ((bound + 1) / 2 / period)) : 2 * (k * period - 1) < bound := by
  obtain ⟨hpos, hlt⟩ := List.mem_range'_1.mp hk
  have hle : k * period ≤ (bound + 1) / 2 :=
    (Nat.le_div_iff_mul_le hperiod).mp (by omega)
  have hmul : 0 < k * period := Nat.mul_pos hpos hperiod
  omega

theorem time_lt_time {period k k' : Nat} (hperiod : 0 < period) (hpos : 0 < k) (h : k < k') :
    2 * (k * period - 1) < 2 * (k' * period - 1) := by
  have hmul : 0 < k * period := Nat.mul_pos hpos hperiod
  have hlt : k * period < k' * period := Nat.mul_lt_mul_of_pos_right h hperiod
  omega

/-- **A sampler samples every period.** Whatever looks a new sampler has had, at models of any
kind, its samples are the outputs at those rising edges whose number is a multiple of the period,
each with its verdict, and the first sample with a verdict is found. The looks of a run go on from
those before it. In one run the samples come a whole number of periods after its start, each later
than the one before and the last before the bound. -/
theorem samples_every_period (period : Nat) (looks : List Look) :
    let q := max period 1
    (let sampler := shown looks (new period)
     let edges := (looks.filter (·.info.risingEdge)).zipIdx 1
     sampler.samples.toList.map (fun sample => (sample.time, sample.trap, sample.verdict)) =
       (edges.filter (q ∣ ·.2)).map (fun edge =>
         let trap := (Model.trapRecord edge.1.model).1
         (edge.1.info.time, trap, classify trap.resultCode trap.causeCode)) ∧
     (∀ verdict time, sampler.first? verdict = some time ↔ ∃ before sample after,
       sampler.samples.toList = before ++ sample :: after ∧ sample.verdict = verdict ∧
         sample.time = time ∧ ∀ other ∈ before, other.verdict ≠ verdict) ∧
     (∀ verdict, sampler.first? verdict = none ↔
       ∀ sample ∈ sampler.samples.toList, sample.verdict ≠ verdict) ∧
     ∀ (σ : Type) [Model σ] (bench : Testbench) (model : σ) (log : Log),
       let later := bench.looksOf model sampler log
       later.map Look.info = (List.range bench.config.maxSimTime).map bench.stepAt ∧
         (bench.runWith model sampler log).probe = shown (looks ++ later) (new period)) ∧
    ∀ (σ : Type) [Model σ] (bench : Testbench) (model : σ) (log : Log),
      let bound := bench.config.maxSimTime
      let samples := (bench.runWith model (new period) log).probe.samples.toList
      samples.length = (bound + 1) / 2 / q ∧
      samples.map (·.time) =
        (List.range' 1 ((bound + 1) / 2 / q)).map (fun k => 2 * (k * q - 1)) ∧
      samples.Pairwise (·.time < ·.time) ∧ ∀ sample ∈ samples, sample.time < bound := by
  intro q
  have hq : 0 < q := Nat.lt_of_lt_of_le Nat.zero_lt_one (Nat.le_max_right period 1)
  refine ⟨?_, fun σ _ bench model log => ?_⟩
  · intro sampler edges
    refine ⟨?_, fun _ _ => first?_eq_some_iff, fun _ => first?_eq_none_iff,
      fun σ _ bench model log => ⟨bench.infos_looksOf model sampler log, ?_⟩⟩
    · rw [samples_shown_new, kept, List.map_map]
      rfl
    · rw [bench.probe_runWith_eq_shown, shown_append]
  · intro bound samples
    have htimes : samples.map (·.time) =
        (List.range' 1 ((bound + 1) / 2 / q)).map fun k => 2 * (k * q - 1) :=
      times_of_run bench period model log
    refine ⟨?_, htimes, ?_, fun sample hsample => ?_⟩
    · rw [← List.length_map (f := VerdictSample.time), htimes, List.length_map, List.length_range']
    · rw [← List.pairwise_map (f := VerdictSample.time) (R := (· < ·)), htimes, List.pairwise_map]
      refine List.Pairwise.imp_of_mem (fun hk _ h => ?_) List.pairwise_lt_range'
      exact time_lt_time hq (List.mem_range'_1.mp hk).1 h
    · have hmem : sample.time ∈ samples.map (·.time) := List.mem_map_of_mem hsample
      rw [htimes] at hmem
      obtain ⟨k, hk, htime⟩ := List.mem_map.mp hmem
      rw [← htime]
      exact time_lt_of_mem hq hk

end VerdictSampler

end CycleBench
