import CycleBench.CommandLine.Perform

/-!
The program: the command line on the files and the clock of this machine.
-/

namespace CycleBench

/-- The fault behind an error of this machine, told by its number. -/
def FileFault.ofError (error : IO.Error) : FileFault :=
  match error with
  | .noFileOrDirectory .. => .notFound
  | .inappropriateType _ code details => ofCode code details
  | .otherError code details => ofCode code details
  | error => .other error.toString
where
  /-- Some calls negate the number of an error. -/
  ofCode (code : UInt32) (details : String) : FileFault :=
    let number := min code (0 - code)
    if number = 2 then .notFound
    else if number = 20 then .notDirectory
    else if number = 21 then .isDirectory
    else .other details

/-- Work with files whose errors are told apart. -/
def guarded {α : Type} (action : IO α) : IO (Except FileFault α) := do
  match ← action.toBaseIO with
  | .ok value => return .ok value
  | .error error => return .error (.ofError error)

instance : Host IO where
  read path := guarded (IO.FS.readBinFile path)
  write path content := guarded (IO.FS.writeBinFile path content)
  append path content := guarded do
    let handle ← IO.FS.Handle.mk path .append
    handle.write content
  timed f := do
    let start ← IO.monoNanosNow
    let value ← IO.lazyPure f
    let stop ← IO.monoNanosNow
    return (value, some (stop - start))

end CycleBench

open CycleBench CycleBench.CommandLine in
def main (arguments : List String) : IO UInt32 := do
  match Invocation.read arguments with
  | .error (.display text) =>
    IO.print text.text
    return 0
  | .error (.usage error) =>
    IO.eprintln ("error: " ++ error.message)
    return 2
  | .ok invocation =>
    let named ← IO.getEnv "RUST_LOG"
    let transcript ← invocation.execute (named.map Threshold.ofName)
    IO.eprint transcript.errors
    IO.print transcript.output
    return transcript.exit
