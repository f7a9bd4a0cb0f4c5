import CycleBench.Proofs.ReportText
import CycleBench.Proofs.RunLog
import CycleBench.Proofs.SuiteCommand
import Mathlib.Data.List.Dedup

/-!
Groups of a suite. A case is in one group at most, so the groups that occur and the cases without
one are all there is to a manifest:

* `perm_group_ungrouped`: the groups, each taken once, and the ungrouped cases are a permutation of
  the cases;
* `warned_iff`: running a group warns exactly of one that has no cases;
* `get?_eq_some_iff`: a name stands for its first case;
* `groups_partition_suite`: so a suite that is run group by group has the results of the whole, and
  its counts add up.
-/

namespace CycleBench

namespace Manifest

/-- The groups that occur, each once. -/
def groups (manifest : Manifest) : List String :=
  (manifest.cases.filterMap (·.group)).dedup

/-- The cases without a group. -/
def ungrouped (manifest : Manifest) : List SuiteCase :=
  manifest.cases.filter (·.group = none)

variable {manifest : Manifest} {group name : String} {test : SuiteCase}

/-! ## Partition -/

theorem mem_group_iff : test ∈ manifest.group group ↔
    test ∈ manifest.cases ∧ test.group = some group := by
  simp [Manifest.group]

theorem mem_groups_iff :
    group ∈ manifest.groups ↔ ∃ test ∈ manifest.cases, test.group = some group := by
  rw [groups, List.mem_dedup, List.mem_filterMap]

/-- Nothing that is in a group is left out of its selection. -/
theorem sublist_group {part : List SuiteCase} (h : part.Sublist manifest.cases)
    (hpart : ∀ test ∈ part, test.group = some group) : part.Sublist (manifest.group group) := by
  have hfilter := h.filter (·.group = some group)
  rwa [List.filter_eq_self.mpr fun test htest => decide_eq_true (hpart test htest)] at hfilter

/-- Different groups have no cases in common, so together they are the cases that are in one. -/
theorem perm_flatMap_group {groups : List String} (h : groups.Nodup) :
    (groups.flatMap manifest.group).Perm
      (manifest.cases.filter fun test => ∃ group ∈ groups, test.group = some group) := by
  induction groups with
  | nil => simp
  | cons group groups ih =>
    obtain ⟨hgroup, hgroups⟩ := List.nodup_cons.mp h
    have hsplit := List.filter_append_perm (fun test : SuiteCase => test.group = some group)
      (manifest.cases.filter fun test => ∃ other ∈ group :: groups, test.group = some other)
    rw [List.filter_filter, List.filter_filter] at hsplit
    have hfirst : manifest.cases.filter (fun test => decide (test.group = some group) &&
        decide (∃ other ∈ group :: groups, test.group = some other)) = manifest.group group := by
      refine List.filter_congr fun test _ => ?_
      by_cases h : test.group = some group <;> simp [h]
    have hrest : manifest.cases.filter (fun test => !decide (test.group = some group) &&
        decide (∃ other ∈ group :: groups, test.group = some other)) =
          manifest.cases.filter fun test => ∃ other ∈ groups, test.group = some other := by
      refine List.filter_congr fun test _ => ?_
      by_cases h : test.group = some group
      · simp [h, hgroup]
      · simp [h]
    rw [hfirst, hrest] at hsplit
    exact ((ih hgroups).append_left _).trans hsplit

/-- The groups, each taken once, and the cases without one are the cases of the manifest. -/
theorem perm_group_ungrouped {groups : List String} (h : groups.Nodup)
    (hgroups : ∀ group, group ∈ groups ↔ ∃ test ∈ manifest.cases, test.group = some group) :
    (groups.flatMap manifest.group ++ manifest.ungrouped).Perm manifest.cases := by
  have hungrouped : manifest.ungrouped = manifest.cases.filter fun test =>
      !decide (∃ group ∈ groups, test.group = some group) := by
    refine List.filter_congr fun test htest => ?_
    cases hgroup : test.group with
    | none => simp
    | some group => simp [(hgroups group).mpr ⟨test, htest, hgroup⟩]
  rw [hungrouped]
  exact ((perm_flatMap_group h).append_right _).trans (List.filter_append_perm _ _)

/-! ## Names -/

theorem get?_eq_some_iff : manifest.get? name = some test ↔
    ∃ before after, manifest.cases = before ++ test :: after ∧ test.name = name ∧
      ∀ earlier ∈ before, earlier.name ≠ name := by
  rw [get?, List.find?_eq_some_iff_append]
  simp only [decide_eq_true_eq, Bool.not_eq_true', decide_eq_false_iff_not]
  constructor
  · rintro ⟨hname, before, after, hcases, hbefore⟩
    exact ⟨before, after, hcases, hname, hbefore⟩
  · rintro ⟨before, after, hcases, hname, hbefore⟩
    exact ⟨hname, before, after, hcases, hbefore⟩

theorem isSome_get?_iff : (manifest.get? name).isSome = true ↔ name ∈ manifest.names := by
  simp [get?, names, List.find?_isSome]

end Manifest

/-! ## Warnings -/

theorem Event.message_eq_iff (event : Event) :
    event.message = "Unrecognized test group" ↔ event.level = .warn := by
  cases event <;> simp [message, level]

namespace Testbench

theorem level_ne_warn_of_mem_events {bench : Testbench} {step : StepInfo} {event : Event}
    (h : event ∈ bench.events step) : event.level ≠ .warn := by
  have hevent : event = .resetReleased step.time bench.config.signals.reset ∨
      event = .stepped step.time step.clock step.resetLevel := by
    unfold events at h
    split at h <;> split at h <;> simp_all
  obtain rfl | rfl := hevent <;> rintro ⟨⟩

/-- No run warns. -/
theorem level_ne_warn_of_mem_caseEvents {bench : Testbench} {test : SuiteCase} {event : Event}
    (h : event ∈ bench.caseEvents test) : event.level ≠ .warn := by
  simp only [caseEvents, ownEvents, runEvents, List.mem_append, List.mem_cons, List.mem_flatMap,
    List.not_mem_nil, or_false] at h
  obtain ((rfl | ⟨t, -, ht⟩) | rfl) | rfl := h
  · rintro ⟨⟩
  · exact level_ne_warn_of_mem_events ht
  · rintro ⟨⟩
  · rintro ⟨⟩

/-- A log that lets warnings through has one exactly of a group without cases, and names it. -/
theorem warned_iff (bench : Testbench) (manifest : Manifest) (group : String) {limit : Level}
    (hlimit : Level.warn.rank ≤ limit.rank) (event : Event) :
    event ∈ (bench.runSuite (manifest.group group) (Log.extend { threshold := some limit }
      (manifest.selectEvents (.group group)))).2.toList ∧
        event.message = "Unrecognized test group" ↔
      event = .unknownGroup group ∧ manifest.group group = [] := by
  rw [log_runSuite, ← Log.extend_append, Log.toList_extend_of_limit, Event.message_eq_iff]
  simp only [List.nil_append, List.mem_filter, decide_eq_true_eq, List.mem_append,
    List.mem_flatMap, Manifest.selectEvents]
  constructor
  · rintro ⟨⟨hselect | ⟨test, -, htest⟩, -⟩, hlevel⟩
    · split at hselect
      · next hempty => exact ⟨List.mem_singleton.mp hselect, List.isEmpty_iff.mp hempty⟩
      · cases hselect
    · exact absurd hlevel (level_ne_warn_of_mem_caseEvents htest)
  · rintro ⟨rfl, hempty⟩
    rw [hempty]
    exact ⟨⟨.inl (List.mem_singleton.mpr rfl), hlimit⟩, rfl⟩

/-! ## Suites -/

theorem results_runSuite (bench : Testbench) (tests : List SuiteCase) (log : Log) :
    (bench.runSuite tests log).1.results = tests.map bench.resultOf :=
  congrArg SuiteReport.results (bench.runSuite_fst tests log)

end Testbench

theorem SuiteReport.summary_of_perm {report report' : SuiteReport}
    (h : report.results.Perm report'.results) : report.summary = report'.summary := by
  simp only [summary, h.length_eq, h.countP_eq]

theorem SuiteReport.failed_joined (reports : List SuiteReport) :
    (joined reports).summary.failed = (reports.map (·.summary.failed)).sum := by
  simp only [failed_summary, joined, List.countP_flatMap, Function.comp_def]

/-- **Groups lose nothing and duplicate nothing.** A group is the part of the manifest that is in
it, in the same order, and is warned of when it is empty. The groups that occur, each taken once and
in any order, and the cases without a group are the cases of the manifest as often as they occur
there; so the results of running them one by one are those of the whole suite, and their counts add
up to its counts. A name stands for the first case that has it, whose result is the first of that
name. -/
theorem Manifest.groups_partition_suite (manifest : Manifest) (bench : Testbench) :
    (∀ group : String,
      (manifest.group group).Sublist manifest.cases ∧
      (∀ test, test ∈ manifest.group group ↔
        test ∈ manifest.cases ∧ test.group = some group) ∧
      (∀ part : List SuiteCase, part.Sublist manifest.cases →
        (∀ test ∈ part, test.group = some group) → part.Sublist (manifest.group group)) ∧
      ∀ (limit : Level) (event : Event), Level.warn.rank ≤ limit.rank →
        let selected := Log.extend { threshold := some limit }
          (manifest.selectEvents (.group group))
        (event ∈ (bench.runSuite (manifest.group group) selected).2.toList ∧
            event.message = "Unrecognized test group" ↔
          event = .unknownGroup group ∧ manifest.group group = [])) ∧
    (manifest.groups.Nodup ∧ ∀ group, group ∈ manifest.groups ↔
      ∃ test ∈ manifest.cases, test.group = some group) ∧
    (∀ test ∈ manifest.ungrouped, ∀ group, test ∉ manifest.group group) ∧
    (∀ groups : List String, groups.Nodup →
      (∀ group, group ∈ groups ↔ ∃ test ∈ manifest.cases, test.group = some group) →
      (groups.flatMap manifest.group ++ manifest.ungrouped).Perm manifest.cases ∧
      ∀ (log log' : Log) (logs : String → Log),
        let whole := (bench.runSuite manifest.cases log).1
        let parts := groups.map (fun group =>
          (bench.runSuite (manifest.group group) (logs group)).1) ++
            [(bench.runSuite manifest.ungrouped log').1]
        (parts.flatMap (·.results)).Perm whole.results ∧
        (parts.map (·.summary.total)).sum = whole.summary.total ∧
        (parts.map (·.summary.passed)).sum = whole.summary.passed ∧
        (parts.map (·.summary.failed)).sum = whole.summary.failed) ∧
    ∀ name : String,
      ((manifest.get? name).isSome = true ↔ name ∈ manifest.names) ∧
      ∀ test, manifest.get? name = some test →
        (∃ before after, manifest.cases = before ++ test :: after ∧ test.name = name ∧
          ∀ earlier ∈ before, earlier.name ≠ name) ∧
        ∀ log log' : Log, ∃ before result after,
          (bench.runSuite manifest.cases log).1.results = before ++ result :: after ∧
          (bench.runSuite [test] log').1.results = [result] ∧ result.name = name ∧
          ∀ earlier ∈ before, earlier.name ≠ name := by
  refine ⟨fun group => ⟨List.filter_sublist, fun test => mem_group_iff, fun part => sublist_group,
    fun limit event hlimit => bench.warned_iff manifest group hlimit event⟩,
    ⟨List.nodup_dedup _, fun group => mem_groups_iff⟩, ?_, ?_, ?_⟩
  · intro test htest group hgroup
    have hnone : test.group = none := of_decide_eq_true (List.mem_filter.mp htest).2
    exact absurd ((mem_group_iff.mp hgroup).2.symm.trans hnone) nofun
  · intro groups hnodup hgroups
    have hperm := perm_group_ungrouped hnodup hgroups
    refine ⟨hperm, fun log log' logs => ?_⟩
    intro whole parts
    have hresults : (SuiteReport.joined parts).results.Perm whole.results := by
      simp only [SuiteReport.joined, parts, whole, List.flatMap_append, List.flatMap_map,
        List.flatMap_singleton, Testbench.results_runSuite]
      rw [← List.map_flatMap, ← List.map_append]
      exact hperm.map _
    have hsummary := SuiteReport.summary_of_perm hresults
    obtain ⟨htotal, hpassed⟩ := SuiteReport.summary_joined parts
    rw [hsummary] at htotal hpassed
    have hfailed := SuiteReport.failed_joined parts
    rw [hsummary] at hfailed
    exact ⟨hresults, htotal.symm, hpassed.symm, hfailed.symm⟩
  · refine fun name => ⟨isSome_get?_iff, fun test htest => ?_⟩
    obtain ⟨before, after, hcases, hname, hbefore⟩ := get?_eq_some_iff.mp htest
    refine ⟨⟨before, after, hcases, hname, hbefore⟩, fun log log' => ?_⟩
    refine ⟨before.map bench.resultOf, bench.resultOf test, after.map bench.resultOf, ?_, ?_, hname,
      List.forall_mem_map.mpr hbefore⟩
    · rw [Testbench.results_runSuite, hcases, List.map_append, List.map_cons]
    · exact bench.results_runSuite [test] log'

-- The empty text is the name of a group like any other.
example :
    let manifest : Manifest := ⟨[⟨"a", none, {}⟩, ⟨"b", some "", {}⟩, ⟨"a", some "", {}⟩]⟩
    (manifest.group "").map (·.name) = ["b", "a"] ∧ manifest.ungrouped.map (·.name) = ["a"] := by
  decide

end CycleBench
