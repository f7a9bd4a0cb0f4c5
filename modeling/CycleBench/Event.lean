import CycleBench.Reset
import CycleBench.Verdict

/-!
Events: what a run reports while it is going on. Each kind has a level, a target, a message
and named fields.
-/

namespace CycleBench

/-- Levels, from the most to the least severe. -/
inductive Level where
  | error
  | warn
  | info
  | debug
  | trace
deriving DecidableEq, Inhabited

namespace Level

def rank : Level → Nat
  | error => 0
  | warn => 1
  | info => 2
  | debug => 3
  | trace => 4

def name : Level → String
  | error => "ERROR"
  | warn => "WARN"
  | info => "INFO"
  | debug => "DEBUG"
  | trace => "TRACE"

end Level

/-- The most verbose level that is let through; `none` lets nothing through. -/
abbrev Threshold := Option Level

namespace Threshold

def admits : Threshold → Level → Bool
  | none, _ => false
  | some limit, level => level.rank ≤ limit.rank

/-- Warnings pass always; each degree of verbosity lets one more level through. -/
def ofVerbosity : Nat → Threshold
  | 0 => some .warn
  | 1 => some .info
  | 2 => some .debug
  | _ => some .trace

/-- The threshold that a level name stands for, in any case of letters; another name lets
nothing through. -/
def ofName (name : String) : Threshold :=
  [("error", Level.error), ("warn", .warn), ("info", .info), ("debug", .debug),
    ("trace", .trace)].lookup name.toLower

end Threshold

inductive Event where
  | runStarted (maxSimTime resetWindow : Nat) (polarity : Polarity) (clock reset : String)
  | resetReleased (time : Nat) (signal : String)
  | stepped (time : Nat) (clock reset : Bool)
  | runFinished (simTime posedges : Nat) (trap : TrapRecord)
  | risingEdge (time : Nat) (reset : Bool) (trap : TrapRecord)
  | outputsChanged (time : Nat) (trap : TrapRecord)
  | caseFinished (name : String) (verdict : Verdict)
  | unknownGroup (group : String)
deriving DecidableEq

/-- The value of a field. -/
inductive FieldValue where
  | number (value : Int)
  | flag (value : Bool)
  /-- Shown as it is. -/
  | plain (text : String)
  /-- Shown in quotes. -/
  | quoted (text : String)
deriving DecidableEq

namespace Event

def level : Event → Level
  | runStarted .. => .info
  | resetReleased .. => .debug
  | stepped .. => .trace
  | runFinished .. => .info
  | risingEdge .. => .trace
  | outputsChanged .. => .debug
  | caseFinished .. => .info
  | unknownGroup .. => .warn

/-- The parts of a testbench that report events. -/
inductive Target where
  | simulator
  | probe
  | suite
deriving DecidableEq

def Target.path : Target → String
  | simulator => "rvtb_core::sim::simulator"
  | probe => "rvtb_core::tb::probe"
  | suite => "rvtb_core::sim::suite"

def target : Event → Target
  | runStarted .. | resetReleased .. | stepped .. | runFinished .. => .simulator
  | risingEdge .. | outputsChanged .. => .probe
  | caseFinished .. | unknownGroup .. => .suite

def message : Event → String
  | runStarted .. => "testbench run started"
  | resetReleased .. => "reset released"
  | stepped .. => "step"
  | runFinished .. => "testbench run finished"
  | risingEdge .. => "posedge"
  | outputsChanged .. => "outputs changed"
  | caseFinished .. => "case finished"
  | unknownGroup .. => "Unrecognized test group"

def fields : Event → List (String × FieldValue)
  | runStarted maxSimTime resetWindow polarity clock reset =>
    [("max_sim_time", .number maxSimTime), ("reset_window", .number resetWindow),
      ("polarity", .plain polarity.name), ("clock", .plain clock), ("reset", .plain reset)]
  | resetReleased time signal => [("time", .number time), ("signal", .plain signal)]
  | stepped time clock reset =>
    [("time", .number time), ("clock", .flag clock), ("reset", .flag reset)]
  | runFinished simTime posedges trap =>
    [("sim_time", .number simTime), ("posedges", .number posedges),
      ("trap", .plain trap.text), ("verdict", .plain trap.verdict.label)]
  | risingEdge time reset trap =>
    [("time", .number time), ("reset", .flag reset),
      ("a0", .number trap.resultCode.toInt), ("mcause", .number trap.causeCode.toInt)]
  | outputsChanged time trap =>
    [("time", .number time), ("trap", .plain trap.text),
      ("verdict", .plain trap.verdict.label)]
  | caseFinished name verdict => [("name", .plain name), ("verdict", .plain verdict.label)]
  | unknownGroup group => [("group", .quoted group)]

end Event

/-- The events let through so far. -/
structure Log where
  threshold : Threshold
  events : Array Event := #[]

namespace Log

def emit (log : Log) (event : Event) : Log :=
  if log.threshold.admits event.level then { log with events := log.events.push event }
  else log

/-- Emits events in their order. -/
def extend (log : Log) (events : List Event) : Log :=
  events.foldl emit log

def toList (log : Log) : List Event :=
  log.events.toList

theorem threshold_emit (log : Log) (event : Event) :
    (log.emit event).threshold = log.threshold := by
  unfold emit
  split <;> rfl

theorem toList_emit (log : Log) (event : Event) :
    (log.emit event).toList =
      log.toList ++ [event].filter fun e => log.threshold.admits e.level := by
  unfold emit toList
  split <;> simp_all

theorem toList_extend (log : Log) (events : List Event) :
    (log.extend events).toList =
      log.toList ++ events.filter fun e => log.threshold.admits e.level := by
  induction events generalizing log with
  | nil => simp [extend]
  | cons event events ih =>
    have h := ih (log.emit event)
    rw [threshold_emit, toList_emit, List.append_assoc, ← List.filter_append] at h
    exact h

end Log

end CycleBench
