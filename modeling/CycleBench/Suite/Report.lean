import CycleBench.Verdict

/-!
Reports of a suite: one line `name: LABEL` for each case, and the counts of cases that passed
and failed.
-/

namespace CycleBench

structure CaseResult where
  name : String
  trap : TrapRecord
  verdict : Verdict
  posedges : Nat
deriving DecidableEq

namespace CaseResult

def line (result : CaseResult) : String :=
  result.name ++ ": " ++ result.verdict.label ++ "\n"

def passed (result : CaseResult) : Bool :=
  result.verdict.isPass

end CaseResult

structure SuiteSummary where
  total : Nat := 0
  passed : Nat := 0
deriving DecidableEq

namespace SuiteSummary

def failed (summary : SuiteSummary) : Nat :=
  summary.total - summary.passed

def text (summary : SuiteSummary) : String :=
  s!"{summary.total} tests, {summary.passed} passed, {summary.failed} failed"

end SuiteSummary

/-- Results in the order in which the cases ran. -/
structure SuiteReport where
  results : List CaseResult := []
deriving DecidableEq

namespace SuiteReport

def text (report : SuiteReport) : String :=
  String.join (report.results.map CaseResult.line)

def summary (report : SuiteReport) : SuiteSummary where
  total := report.results.length
  passed := report.results.countP CaseResult.passed

def allPassed (report : SuiteReport) : Bool :=
  report.results.all CaseResult.passed

end SuiteReport

end CycleBench
