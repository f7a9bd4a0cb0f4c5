import CycleBench.CommandLine.Arguments
import CycleBench.Config
import CycleBench.Suite
import CycleBench.Text.Integer
import CycleBench.Text.Split

/-!
The commands: `run` drives the scripted core once, `classify` names the verdict of two bytes,
and `suite` runs the cases of a manifest.
-/

namespace CycleBench.CommandLine

/-- Settings of the testbench; each one that is given takes the place of the configured one. -/
structure BenchOptions where
  /-- A file with a configuration. -/
  config : Option String := none
  maxSimTime : Option Nat := none
  resetWindow : Option Nat := none
  activeLow : Bool := false
  traceSteps : Bool := false
deriving DecidableEq

/-- A configuration with the given settings in place of its own. -/
def BenchOptions.override (options : BenchOptions) (config : Config) : Config :=
  { config with
    maxSimTime := options.maxSimTime.getD config.maxSimTime
    reset := {
      window := options.resetWindow.getD config.reset.window
      polarity := if options.activeLow then .activeLow else config.reset.polarity }
    traceSteps := config.traceSteps || options.traceSteps }

structure RunOptions where
  bench : BenchOptions := {}
  program : Program := {}
  probe : Bool := false
  stats : Bool := false
  sections : List String := []
deriving DecidableEq

/-- Naming a section asks for statistics. -/
def RunOptions.wantsStats (options : RunOptions) : Bool :=
  options.stats || !options.sections.isEmpty

structure SuiteOptions where
  /-- The file with the manifest. -/
  manifest : String
  bench : BenchOptions := {}
  selection : Selection := .all
  list : Bool := false
  /-- The file that the report goes to. -/
  out : String := "result.txt"
  append : Bool := false
deriving DecidableEq

inductive Command where
  | run (options : RunOptions)
  | classify (trap : TrapRecord)
  | suite (options : SuiteOptions)
deriving DecidableEq

/-- A command, and how often more of the log was asked for. -/
structure Invocation where
  verbosity : Nat
  command : Command
deriving DecidableEq

/-- A path is not empty. -/
def path? (text : String) : Option String :=
  if text = "" then none else some text

namespace BenchOptions

def specs : List (OptionSpec BenchOptions) := [
  .value "config" (some 'c') fun text options =>
    (path? text).map fun path => { options with config := some path },
  .value "max-sim-time" none fun text options =>
    (Text.natural64? text).map fun n => { options with maxSimTime := some n },
  .value "reset-window" none fun text options =>
    (Text.natural64? text).map fun n => { options with resetWindow := some n },
  .flag "active-low" none fun options => { options with activeLow := true },
  .flag "trace-steps" none fun options => { options with traceSteps := true }]

end BenchOptions

/-- Counts how often it is given. -/
def verboseSpec : OptionSpec Nat :=
  (OptionSpec.flag "verbose" (some 'v') (· + 1)).repeated

def helpSpec {α : Type} : OptionSpec α :=
  .display "help" 'h' .help

/-- The grammar of a command: its own options, the verbosity and the help. -/
def commandGrammar {α : Type} (options : List (OptionSpec α))
    (positional : Option (OptionSpec α)) : Grammar (Nat × α) :=
  let own := OptionSpec.within (β := Nat × α) Prod.snd fun values pair => (pair.1, values)
  { options :=
      verboseSpec.within Prod.fst (fun count pair => (count, pair.2)) ::
        helpSpec :: options.map own
    positional := positional.map own
    exclusive := [] }

def topGrammar : Grammar Nat where
  options := [verboseSpec, helpSpec, .display "version" 'V' .version]
  positional := none
  exclusive := []

def runGrammar : Grammar (Nat × RunOptions) :=
  commandGrammar
    (BenchOptions.specs.map (·.within (·.bench) fun bench options => { options with bench }) ++ [
      .signed "result" fun text options => (Text.signedByte? text).map fun r =>
        { options with program := { options.program with resultCode := r } },
      .signed "cause" fun text options => (Text.signedByte? text).map fun c =>
        { options with program := { options.program with causeCode := c } },
      .value "latency" none fun text options => (Text.natural64? text).map fun n =>
        { options with program := { options.program with latency := n } },
      .flag "probe" none fun options => { options with probe := true },
      .flag "stats" none fun options => { options with stats := true },
      (OptionSpec.value "stats-sections" none fun text options =>
        some { options with sections := options.sections ++ Text.split ',' text }).repeated])
    none

def classifyGrammar : Grammar (Nat × TrapRecord) :=
  commandGrammar [
    (OptionSpec.signed "result" fun text trap => (Text.signedByte? text).map fun r =>
      { trap with resultCode := r }).needed,
    (OptionSpec.signed "cause" fun text trap => (Text.signedByte? text).map fun c =>
      { trap with causeCode := c }).needed]
    none

/-- A group and a single case exclude each other. -/
def suiteGrammar : Grammar (Nat × SuiteOptions) :=
  { commandGrammar
    (BenchOptions.specs.map (·.within (·.bench) fun bench options => { options with bench }) ++ [
      .value "group" (some 'g') fun text options =>
        some { options with selection := .group text },
      .value "single" (some 's') fun text options =>
        some { options with selection := .single text },
      .flag "list" (some 'l') fun options => { options with list := true },
      .value "out" (some 'o') fun text options =>
        (path? text).map fun path => { options with out := path },
      .flag "append" none fun options => { options with append := true }])
    (some (OptionSpec.value "manifest" none fun text options =>
      (path? text).map fun path => { options with manifest := path }).needed) with
    exclusive := [("group", "single")] }

/-- Reads the arguments of a command to the end. -/
def readCommand {α : Type} (grammar : Grammar (Nat × α)) (initial : α)
    (arguments : List String) : Except Halt (Nat × α) := do
  let (settings, _) ← grammar.read false arguments { values := (0, initial) }
  grammar.complete settings

def readNamed (name : String) (arguments : List String) : Except Halt (Nat × Command) := do
  match name with
  | "run" => return (← readCommand runGrammar {} arguments).map id .run
  | "classify" => return (← readCommand classifyGrammar ⟨0, 0⟩ arguments).map id .classify
  | "suite" => return (← readCommand suiteGrammar { manifest := "" } arguments).map id .suite
  | "help" =>
    match arguments with
    | [] | ["run"] | ["classify"] | ["suite"] | ["help"] => throw (.display .help)
    | argument :: _ => throw (.usage (.unknownCommand argument))
  | _ => throw (.usage (.unknownCommand name))

/-- Reads a command line. The verbosity may be given before or behind the command; behind it
counts if both are given. -/
def Invocation.read (arguments : List String) : Except Halt Invocation := do
  let (settings, named) ← topGrammar.read true arguments { values := 0 }
  match named with
  | none => throw (.usage .missingCommand)
  | some (name, rest) =>
    let (verbosity, command) ← readNamed name rest
    return { verbosity := if verbosity = 0 then settings.values else verbosity, command }

end CycleBench.CommandLine
