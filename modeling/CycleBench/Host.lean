import CycleBench.Document.Config
import CycleBench.Document.Manifest
import CycleBench.Event
import CycleBench.Suite.Report

/-!
The host: the files that a testbench reads and writes, and the time that a run takes there.
-/

namespace CycleBench

class Host (m : Type → Type) where
  read : String → m (Except FileFault ByteArray)
  /-- Replaces the content of a file, which need not exist. -/
  write : String → ByteArray → m (Except FileFault Unit)
  /-- Adds to the end of a file, which need not exist. -/
  append : String → ByteArray → m (Except FileFault Unit)
  /-- A value, and the nanoseconds that it took where they can be told. -/
  timed : {α : Type} → (Unit → α) → m (α × Option Nat)

/-- Work on a host that may fail and that writes a log, which outlives a failure. -/
abbrev Work (m : Type → Type) := ExceptT Failure (StateT Log m)

namespace Work

variable {m : Type → Type} [Monad m]

def ofExcept {α : Type} : Except Failure α → Work m α
  | .ok value => pure value
  | .error failure => throw failure

/-- Work whose failure is the fault of a file. -/
def onFile {α : Type} (path : String) (action : m (Except FileFault α)) : Work m α := do
  match ← (action : StateT Log m (Except FileFault α)) with
  | .ok value => pure value
  | .error fault => throw (.file path fault)

def emit (events : List Event) : Work m Unit :=
  modify fun log => log.extend events

variable [Host m]

/-- The text of a file, which has to be valid UTF-8. -/
def readText (path : String) : Work m String := do
  match String.fromUTF8? (← onFile path (Host.read path)) with
  | some text => pure text
  | none => throw (.file path .invalidUtf8)

end Work

variable {m : Type → Type} [Monad m] [Host m]

def Config.ofFile (path : String) : Work m Config := do
  Work.ofExcept (Config.ofJson (← Work.readText path))

def Manifest.ofFile (path : String) : Work m Manifest := do
  Work.ofExcept (Manifest.ofJson (← Work.readText path))

namespace SuiteReport

def writeTo (report : SuiteReport) (path : String) : Work m Unit :=
  Work.onFile path (Host.write path report.text.toUTF8)

def appendTo (report : SuiteReport) (path : String) : Work m Unit :=
  Work.onFile path (Host.append path report.text.toUTF8)

/-- Writes the report in place of what a file holds, or behind it. -/
def saveTo (report : SuiteReport) (append : Bool) (path : String) : Work m Unit :=
  if append then report.appendTo path else report.writeTo path

end SuiteReport

end CycleBench
