import CycleBench.Clock
import CycleBench.Model
import CycleBench.Reset

/-!
The scripted core: a stand-in for a core under test. Out of reset it counts rising clock edges
and, once it has counted enough, latches a trap with the outputs of its program.
-/

namespace CycleBench

structure Program where
  resultCode : Int8 := TrapRecord.resultPass
  causeCode : Int8 := Cause.environmentCallFromMMode
  /-- Rising edges out of reset before the trap; with none, the first evaluation traps. -/
  latency : Nat := 1000
deriving DecidableEq, Inhabited

namespace Program

/-- A program that ends with `ecall` and a passing result. -/
def passing (latency : Nat) : Program :=
  ⟨TrapRecord.resultPass, Cause.environmentCallFromMMode, latency⟩

def trap (program : Program) : TrapRecord :=
  ⟨program.resultCode, program.causeCode⟩

end Program

structure ScriptedCore where
  program : Program
  polarity : Polarity
  clockPin : Bool := false
  resetPin : Bool := false
  /-- The clock level at the previous evaluation. -/
  lastClock : Bool := false
  cycles : Nat := 0
  trapped : Bool := false
  outputs : TrapRecord := TrapRecord.idle
deriving DecidableEq

namespace ScriptedCore

def new (program : Program) (polarity : Polarity) : ScriptedCore :=
  { program, polarity }

def inReset (core : ScriptedCore) : Bool :=
  core.polarity.isAsserted core.resetPin

/-- Latches the program's trap when enough cycles have passed and none is latched yet. -/
def latch (core : ScriptedCore) : ScriptedCore :=
  if core.program.latency ≤ core.cycles && !core.trapped then
    { core with trapped := true, outputs := core.program.trap }
  else core

def eval (core : ScriptedCore) : ScriptedCore :=
  let edge := Clock.isRisingEdge core.lastClock core.clockPin
  let core := { core with lastClock := core.clockPin }
  if core.inReset then
    { core with cycles := 0, trapped := false, outputs := TrapRecord.idle }
  else if edge then latch { core with cycles := core.cycles + 1 }
  else latch core

instance : Model ScriptedCore where
  setClock level core := { core with clockPin := level }
  setReset level core := { core with resetPin := level }
  eval := eval
  resultCode core := (core.outputs.resultCode, core)
  causeCode core := (core.outputs.causeCode, core)

end ScriptedCore

end CycleBench
