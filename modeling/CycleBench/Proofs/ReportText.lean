import CycleBench.Suite.Report
import CycleBench.Text.Split
import Mathlib.Algebra.Ring.Nat
import Mathlib.Data.List.Basic
import Mathlib.Data.Option.Basic

/-!
Reading a report back. A line of a report has one place where its name ends, whatever the name
looks like, because no label has a colon in it:

* `cutLast?`: a text cut at the last occurrence of a separator (`cutLast?_eq_some_iff`);
* `lines_text`: the lines of a report, for names without line feeds;
* `cutLast?_lineOf`, `read?_lineOf`, `endsInPass_iff`: what a line tells of its case;
* `text_tells_results`: the text of a report tells names, verdicts and counts, and reports that are
  put together have the text and the counts of their parts.
-/

namespace CycleBench

namespace Text

/-- The lines of a text in which every line is ended by a line feed. -/
def lines (text : String) : List (List Char) :=
  (splitChars '\n' text.toList).dropLast

/-- A text cut at the last occurrence of a separator, which is left out. -/
def cutLast? (separator : List Char) : List Char → Option (List Char × List Char)
  | [] => if separator = [] then some ([], []) else none
  | c :: rest =>
    match cutLast? separator rest with
    | some (before, after) => some (c :: before, after)
    | none =>
      if separator.isPrefixOf (c :: rest) then some ([], (c :: rest).drop separator.length)
      else none

/-! ## The last occurrence -/

variable {separator text before after : List Char}

theorem eq_append_of_cutLast? (h : cutLast? separator text = some (before, after)) :
    text = before ++ separator ++ after := by
  induction text generalizing before after with
  | nil =>
    unfold cutLast? at h
    split at h
    · rename_i hseparator
      cases h
      rw [hseparator]
      rfl
    · cases h
  | cons c rest ih =>
    unfold cutLast? at h
    split at h
    · rename_i before' after' hcut
      cases h
      rw [ih hcut]
      rfl
    · split at h
      · rename_i hprefix
        cases h
        have hstart := List.prefix_iff_eq_append.mp (List.isPrefixOf_iff_prefix.mp hprefix)
        exact hstart.symm
      · cases h

theorem ne_append_of_cutLast? (h : cutLast? separator text = none) (before after : List Char) :
    text ≠ before ++ separator ++ after := by
  induction text generalizing before with
  | nil =>
    intro htext
    unfold cutLast? at h
    simp_all
  | cons c rest ih =>
    unfold cutLast? at h
    split at h
    · cases h
    · rename_i hrest
      split at h
      · cases h
      · rename_i hprefix
        intro htext
        cases before with
        | nil =>
          refine hprefix (List.isPrefixOf_iff_prefix.mpr ?_)
          rw [htext]
          exact List.prefix_append separator after
        | cons d before =>
          exact ih hrest before (List.cons.inj htext).2

/-- No occurrence of the separator begins behind the cut. -/
theorem length_le_of_cutLast? (h : cutLast? separator text = some (before, after))
    {before' after' : List Char} (htext : text = before' ++ separator ++ after') :
    before'.length ≤ before.length := by
  induction text generalizing before before' with
  | nil =>
    have hlength := congrArg List.length htext
    simp only [List.length_nil, List.length_append] at hlength
    omega
  | cons c rest ih =>
    cases before' with
    | nil => exact Nat.zero_le _
    | cons d before' =>
      have hrest : rest = before' ++ separator ++ after' := (List.cons.inj htext).2
      unfold cutLast? at h
      split at h
      · rename_i hcut
        cases h
        exact Nat.succ_le_succ (ih hcut hrest)
      · rename_i hnone
        exact absurd hrest (ne_append_of_cutLast? hnone before' after')

theorem cutLast?_eq_some_iff :
    cutLast? separator text = some (before, after) ↔
      text = before ++ separator ++ after ∧ ∀ before' after',
        text = before' ++ separator ++ after' → before'.length ≤ before.length := by
  constructor
  · exact fun h => ⟨eq_append_of_cutLast? h, fun _ _ => length_le_of_cutLast? h⟩
  · rintro ⟨htext, hlast⟩
    cases hcut : cutLast? separator text with
    | none => exact absurd htext (ne_append_of_cutLast? hcut before after)
    | some pieces =>
      obtain ⟨before', after'⟩ := pieces
      have htext' := eq_append_of_cutLast? hcut
      have hlength : before'.length = before.length :=
        Nat.le_antisymm (hlast _ _ htext') (length_le_of_cutLast? hcut htext)
      rw [htext, List.append_assoc, List.append_assoc] at htext'
      obtain ⟨rfl, htail⟩ := List.append_inj htext' hlength.symm
      rw [List.append_cancel_left htail]

/-- A separator that begins with a character of its own is cut at, if none comes behind it. -/
theorem cutLast?_of_notMem {c : Char} {more : List Char} (h : c ∉ more ++ after) :
    cutLast? (c :: more) (before ++ c :: more ++ after) = some (before, after) := by
  refine cutLast?_eq_some_iff.mpr ⟨rfl, fun before' after' htext => ?_⟩
  -- an occurrence that begins later begins behind the separator of the cut
  rw [List.append_assoc, List.append_assoc] at htext
  rcases List.append_eq_append_iff.mp htext with ⟨middle, hbefore, htail⟩ | ⟨middle, rfl, -⟩
  · cases middle with
    | nil => simp [hbefore]
    | cons d middle =>
      have hmore : more ++ after = middle ++ c :: (more ++ after') := (List.cons.inj htail).2
      exact absurd (hmore ▸ List.mem_append_right middle List.mem_cons_self) h
  · simp

end Text

/-! ## Lines -/

theorem Verdict.notMem_label (verdict : Verdict) :
    ':' ∉ verdict.label.toList ∧ '\n' ∉ verdict.label.toList := by
  cases verdict <;> decide

/-- The verdict that a label stands for. -/
def Verdict.ofLabel? (label : String) : Option Verdict :=
  Verdict.all.find? (·.label = label)

theorem Verdict.ofLabel?_label (verdict : Verdict) :
    Verdict.ofLabel? verdict.label = some verdict := by
  cases verdict <;> rfl

theorem Verdict.eq_of_label_eq {verdict other : Verdict} (h : verdict.label = other.label) :
    verdict = other := by
  have hother := other.ofLabel?_label
  rw [← h, ofLabel?_label] at hother
  exact Option.some.inj hother

namespace CaseResult

/-- The line of a case without the line feed at its end. -/
def lineOf (result : CaseResult) : List Char :=
  result.name.toList ++ [':', ' '] ++ result.verdict.label.toList

theorem toList_line (result : CaseResult) : result.line.toList = result.lineOf ++ ['\n'] := by
  simp [line, lineOf, String.toList_append]

theorem cutLast?_lineOf (result : CaseResult) :
    Text.cutLast? [':', ' '] result.lineOf =
      some (result.name.toList, result.verdict.label.toList) := by
  refine Text.cutLast?_of_notMem ?_
  simpa using result.verdict.notMem_label.1

/-- The name and the verdict that a line tells. -/
def read? (line : List Char) : Option (String × Verdict) := do
  let (name, label) ← Text.cutLast? [':', ' '] line
  let verdict ← Verdict.ofLabel? (String.ofList label)
  return (String.ofList name, verdict)

theorem read?_lineOf (result : CaseResult) :
    read? result.lineOf = some (result.name, result.verdict) := by
  simp [read?, cutLast?_lineOf, Verdict.ofLabel?_label]

theorem newline_notMem_lineOf {result : CaseResult} (h : '\n' ∉ result.name.toList) :
    '\n' ∉ result.lineOf := by
  simp [lineOf, h, result.verdict.notMem_label.2]

/-- A line ends as a pass does only if it is one, however the name ends. -/
theorem endsInPass_iff (result : CaseResult) :
    ": PASS".toList.isSuffixOf result.lineOf = true ↔ result.passed = true := by
  rw [List.isSuffixOf_iff_suffix]
  constructor
  · rintro ⟨before, hline⟩
    -- cut at this colon or at the one behind the name, it is the same line
    have hpass : ':' ∉ [' '] ++ Verdict.pass.label.toList := by decide
    have hcut : Text.cutLast? [':', ' '] (before ++ [':', ' '] ++ Verdict.pass.label.toList) =
        some (before, Verdict.pass.label.toList) := Text.cutLast?_of_notMem hpass
    have hsame : before ++ [':', ' '] ++ Verdict.pass.label.toList = result.lineOf := by
      rw [← hline, List.append_assoc]
      rfl
    rw [hsame, cutLast?_lineOf] at hcut
    have hlabel : result.verdict.label = Verdict.pass.label :=
      String.toList_inj.mp (Prod.mk.inj (Option.some.inj hcut)).2
    exact decide_eq_true (Verdict.eq_of_label_eq hlabel)
  · intro hpassed
    have hverdict : result.verdict = .pass := of_decide_eq_true hpassed
    rw [lineOf, hverdict, List.append_assoc]
    exact List.suffix_append _ _

end CaseResult

namespace SuiteReport

theorem toList_text (report : SuiteReport) :
    report.text.toList = report.results.flatMap fun result => result.lineOf ++ ['\n'] := by
  simp only [text, String.toList_join, List.flatMap_map, CaseResult.toList_line]

theorem lines_text {report : SuiteReport}
    (h : ∀ result ∈ report.results, '\n' ∉ result.name.toList) :
    Text.lines report.text = report.results.map CaseResult.lineOf := by
  obtain ⟨results⟩ := report
  rw [Text.lines, toList_text]
  induction results with
  | nil => rfl
  | cons result results ih =>
    -- the line feed at its end is the first of the text, so the rest is split apart from it
    have hline := CaseResult.newline_notMem_lineOf (h result List.mem_cons_self)
    have hrest := ih fun other hother => h other (List.mem_cons_of_mem _ hother)
    rw [List.flatMap_cons, List.append_assoc, List.singleton_append, Text.splitChars_append,
      Text.splitChars_of_notMem hline, List.singleton_append,
      List.dropLast_cons_of_ne_nil (Text.splitChars_ne_nil _), hrest]
    rfl

theorem read?_lines {report : SuiteReport}
    (h : ∀ result ∈ report.results, '\n' ∉ result.name.toList) :
    (Text.lines report.text).map CaseResult.read? =
      report.results.map fun result => some (result.name, result.verdict) := by
  rw [lines_text h, List.map_map]
  exact List.map_congr_left fun result _ => result.read?_lineOf

/-! ## Counts -/

theorem passed_add_failures (report : SuiteReport) :
    report.summary.passed + report.results.countP (·.verdict ≠ .pass) = report.summary.total := by
  have hsplit := report.results.length_eq_countP_add_countP CaseResult.passed
  have hfailure : ∀ result ∈ report.results,
      decide (¬ result.passed = true) = true ↔ decide (result.verdict ≠ .pass) = true := by
    intro result _
    simp [CaseResult.passed, Verdict.isPass]
  rw [List.countP_congr hfailure] at hsplit
  exact hsplit.symm

theorem failed_summary (report : SuiteReport) :
    report.summary.failed = report.results.countP (·.verdict ≠ .pass) := by
  have h := report.passed_add_failures
  rw [SuiteSummary.failed]
  omega

theorem allPassed_iff_failed (report : SuiteReport) :
    report.allPassed = true ↔ report.summary.failed = 0 := by
  rw [failed_summary, List.countP_eq_zero]
  simp [allPassed, CaseResult.passed, Verdict.isPass]

/-- Reports put together in their order. -/
def joined (reports : List SuiteReport) : SuiteReport :=
  ⟨reports.flatMap (·.results)⟩

theorem text_joined (reports : List SuiteReport) :
    (joined reports).text = String.join (reports.map text) := by
  rw [← String.toList_inj, toList_text, String.toList_join, joined, List.flatMap_assoc,
    List.flatMap_map]
  simp only [toList_text]

theorem summary_joined (reports : List SuiteReport) :
    (joined reports).summary.total = (reports.map (·.summary.total)).sum ∧
      (joined reports).summary.passed = (reports.map (·.summary.passed)).sum :=
  ⟨List.length_flatMap, List.countP_flatMap⟩

/-- **The text of a report tells its results.** If no name has a line feed in it, each line cut at
its last colon and blank gives back the name and the label, and so the verdict, and the lines give
the counts. For any names at all the counts fit together, and putting reports together puts their
texts together and adds up their counts. -/
theorem text_tells_results :
    (∀ report : SuiteReport, (∀ result ∈ report.results, '\n' ∉ result.name.toList) →
      (Text.lines report.text).map (Text.cutLast? [':', ' ']) =
        report.results.map (fun result =>
          some (result.name.toList, result.verdict.label.toList)) ∧
      (Text.lines report.text).map CaseResult.read? =
        report.results.map (fun result => some (result.name, result.verdict)) ∧
      (∀ other : SuiteReport, (∀ result ∈ other.results, '\n' ∉ result.name.toList) →
        other.text = report.text →
        other.results.map (fun result => (result.name, result.verdict)) =
          report.results.map fun result => (result.name, result.verdict)) ∧
      report.summary.total = (Text.lines report.text).length ∧
      report.summary.passed =
        (Text.lines report.text).countP fun line => ": PASS".toList.isSuffixOf line) ∧
    (∀ verdict : Verdict, Verdict.ofLabel? verdict.label = some verdict) ∧
    (∀ report : SuiteReport,
      report.summary.passed ≤ report.summary.total ∧
      report.summary.failed = report.results.countP (·.verdict ≠ .pass) ∧
      (report.allPassed = true ↔ report.summary.failed = 0)) ∧
    ∀ reports : List SuiteReport,
      (SuiteReport.joined reports).text = String.join (reports.map text) ∧
      (joined reports).summary.total = (reports.map (·.summary.total)).sum ∧
      (joined reports).summary.passed = (reports.map (·.summary.passed)).sum := by
  refine ⟨?_, Verdict.ofLabel?_label, ?_, ?_⟩
  · intro report h
    have hlines := lines_text h
    refine ⟨?_, read?_lines h, ?_, ?_, ?_⟩
    · rw [hlines, List.map_map]
      exact List.map_congr_left fun result _ => result.cutLast?_lineOf
    · intro other hother htext
      have hsame := read?_lines hother
      rw [htext, read?_lines h] at hsame
      refine List.map_injective_iff.mpr (Option.some_injective _) ?_
      rw [List.map_map, List.map_map]
      exact hsame.symm
    · rw [hlines, List.length_map]
      rfl
    · rw [hlines, List.countP_map]
      exact List.countP_congr fun result _ => result.endsInPass_iff.symm
  · intro report
    refine ⟨?_, report.failed_summary, report.allPassed_iff_failed⟩
    have hcount := report.passed_add_failures
    omega
  · intro reports
    exact ⟨text_joined reports, summary_joined reports⟩

/-- Names that look like lines or are empty do not confuse the reader. -/
theorem name_like_line :
    let report : SuiteReport := ⟨[⟨"a: PASS", ⟨1, 3⟩, .fail, 5⟩, ⟨"", ⟨0, 3⟩, .pass, 5⟩]⟩
    (∀ result ∈ report.results, '\n' ∉ result.name.toList) ∧
      (Text.lines report.text).map (Text.cutLast? [':', ' ']) =
        [some ("a: PASS".toList, "FAIL".toList), some ("".toList, "PASS".toList)] ∧
      (Text.lines report.text).countP (fun line => ": PASS".toList.isSuffixOf line) = 1 := by
  intro report
  have hnames : ∀ result ∈ report.results, '\n' ∉ result.name.toList := by decide
  obtain ⟨hcuts, -, -, -, hpassed⟩ := text_tells_results.1 report hnames
  exact ⟨hnames, hcuts, hpassed.symm⟩

end SuiteReport

end CycleBench
