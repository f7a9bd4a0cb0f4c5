import CycleBench.Host
import CycleBench.Suite
import CycleBench.Testbench

/-!
Running a suite: every case on a fresh scripted core, with one testbench for all of them. The report
can be saved at once.
-/

namespace CycleBench

namespace Testbench

/-- The core that runs a program on this testbench. -/
def freshCore (bench : Testbench) (program : Program) : ScriptedCore :=
  .new program bench.reset.polarity

/-- Runs one case; the log goes on from case to case. -/
def runCase (bench : Testbench) (test : SuiteCase) (log : Log) : CaseResult × Log :=
  let done := bench.run (bench.freshCore test.program) log
  let verdict := done.outcome.verdict
  ({ name := test.name, trap := done.outcome.trap, verdict, posedges := done.outcome.posedges },
    done.log.emit (.caseFinished test.name verdict))

/-- Runs cases in their order, after those whose results are already there. -/
def runCases (bench : Testbench) : List SuiteCase → Array CaseResult → Log → SuiteReport × Log
  | [], results, log => (⟨results.toList⟩, log)
  | test :: tests, results, log =>
    let done := bench.runCase test log
    bench.runCases tests (results.push done.1) done.2

def runSuite (bench : Testbench) (tests : List SuiteCase) (log : Log) : SuiteReport × Log :=
  bench.runCases tests #[] log

/-- Runs cases and saves their report. -/
def runAndSave {m : Type → Type} [Monad m] [Host m] (bench : Testbench) (append : Bool)
    (path : String) (tests : List SuiteCase) : Work m SuiteReport := do
  let (report, log) := bench.runSuite tests (← get)
  set log
  report.saveTo append path
  return report

end Testbench

end CycleBench
