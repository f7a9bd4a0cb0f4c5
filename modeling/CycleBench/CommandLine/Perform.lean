import CycleBench.CommandLine.Command
import CycleBench.Event.Line
import CycleBench.Host
import CycleBench.Stats.Table
import CycleBench.Suite.Run

/-!
Carrying out commands on a host. The exit status is 0 when every verdict is a pass, 1 when one
is not, and 2 when the command fails; a failed command prints nothing on standard output.
-/

namespace CycleBench.CommandLine

/-- What a command that did not fail has to say. -/
structure Reply where
  passed : Bool
  output : String
  /-- For the standard error, after the log. -/
  notice : String := ""

/-- What is seen of a command, its files apart. -/
structure Transcript where
  exit : UInt32
  output : String
  log : Log
  /-- Behind the log on the standard error. -/
  notice : String

/-- The whole standard error. -/
def Transcript.errors (transcript : Transcript) : String :=
  transcript.log.text ++ transcript.notice

variable {m : Type → Type} [Monad m] [Host m]

/-- The configured testbench, with the given settings in place of the configured ones. -/
def BenchOptions.testbench (options : BenchOptions) : Work m Testbench := do
  let config ← match options.config with
    | some path => Config.ofFile path
    | none => pure {}
  Work.ofExcept (Testbench.ofConfig (options.override config))

/-- A run of a core, under the tracer if it is asked for. -/
def RunOptions.drive (options : RunOptions) (bench : Testbench) (log : Log) : Outcome × Log :=
  let core := bench.freshCore options.program
  if options.probe then
    let done := bench.runWith core ({} : ChangeTracer) log
    (done.outcome, done.log)
  else
    let done := bench.run core log
    (done.outcome, done.log)

/-- What a run says beyond the label of its verdict. -/
def RunOptions.details (options : RunOptions) (outcome : Outcome) (elapsed : Option Nat) :
    String :=
  if options.wantsStats then
    "[*] " ++ outcome.trap.text ++ "  posedges=" ++ toString outcome.posedges ++ "\n" ++
      outcome.stats.table elapsed options.sections
  else ""

/-- What is said about a run that has ended. -/
def RunOptions.reply (options : RunOptions) (outcome : Outcome) (elapsed : Option Nat) : Reply where
  passed := outcome.verdict.isPass
  output := outcome.verdict.label ++ "\n" ++ options.details outcome elapsed

def RunOptions.perform (options : RunOptions) : Work m Reply := do
  Work.ofExcept (StatsSection.check options.sections)
  let bench ← options.bench.testbench
  let log ← get
  let ((outcome, log), elapsed) ← (Host.timed fun _ => options.drive bench log : m _)
  set log
  return options.reply outcome elapsed

def classifyReply (trap : TrapRecord) : Reply :=
  { passed := trap.verdict.isPass, output := trap.verdict.label ++ "\n" }

/-- The cases to run. A single case has to exist; a group may be empty. -/
def SuiteOptions.tests (options : SuiteOptions) (manifest : Manifest) :
    Work m (List SuiteCase) := do
  Work.emit (manifest.selectEvents options.selection)
  match options.selection, manifest.select options.selection with
  | .single name, [] =>
    throw (.invalidConfiguration "single"
      ("no test named '" ++ name ++ "' in " ++ options.manifest))
  | _, tests => return tests

/-- What is said about a suite whose report is saved. -/
def SuiteOptions.replyTo (report : SuiteReport) : Reply where
  passed := report.allPassed
  output := report.text ++ "[*] " ++ report.summary.text ++ "\n"

/-- Runs the cases that have been selected. -/
def SuiteOptions.runTests (options : SuiteOptions) (tests : List SuiteCase) : Work m Reply := do
  if tests.isEmpty then
    return { passed := false, output := "", notice := "[!] No test cases selected\n" }
  let bench ← options.bench.testbench
  let report ← bench.runAndSave options.append options.out tests
  return replyTo report

def SuiteOptions.perform (options : SuiteOptions) : Work m Reply := do
  let manifest ← Manifest.ofFile options.manifest
  if options.list then
    return { passed := true, output := String.join (manifest.names.map (· ++ "\n")) }
  options.runTests (← options.tests manifest)

def Command.perform : Command → Work m Reply
  | run options => options.perform
  | classify trap => return classifyReply trap
  | suite options => options.perform

/-- A command carried out from an empty log. -/
def Command.execute (command : Command) (threshold : Threshold) : m Transcript := do
  match ← (command.perform : Work m Reply).run.run { threshold } with
  | (.ok reply, log) =>
    return ⟨if reply.passed then 0 else 1, reply.output, log, reply.notice⟩
  | (.error failure, log) =>
    return ⟨2, "", log, "[!] " ++ failure.message ++ "\n"⟩

/-- An invocation carried out; `choice` takes the place of the verbosity if there is one. -/
def Invocation.execute (invocation : Invocation) (choice : Option Threshold) : m Transcript :=
  invocation.command.execute (choice.getD (.ofVerbosity invocation.verbosity))

def versionText : String :=
  "rvtb 0.3.0\n"

def helpText : String :=
  "Cycle-driven RISC-V core testbench\n\n" ++
  "Usage: rvtb [OPTIONS] <COMMAND>\n\n" ++
  "Commands:\n" ++
  "  run       Run the scripted core once and print its verdict\n" ++
  "  classify  Print the verdict label for a result register value and trap cause\n" ++
  "  suite     Run cases from a JSON suite manifest\n" ++
  "  help      Print this message\n\n" ++
  "Options:\n" ++
  "  -v, --verbose...  Increase log verbosity (-v info, -vv debug, -vvv trace)\n" ++
  "  -h, --help        Print help\n" ++
  "  -V, --version     Print version\n"

def Display.text : Display → String
  | help => helpText
  | version => versionText

end CycleBench.CommandLine
