import CycleBench.Json.Fault

/-!
Failures: why a testbench cannot be set up, or a document or a report cannot be read or
written. A trap of the core is a verdict and never a failure.
-/

namespace CycleBench

/-- Why a file cannot be read or written. -/
inductive FileFault where
  | notFound
  | isDirectory
  | notDirectory
  | invalidUtf8
  | other (reason : String)
deriving DecidableEq

def FileFault.text : FileFault → String
  | notFound => "No such file or directory (os error 2)"
  | isDirectory => "Is a directory (os error 21)"
  | notDirectory => "Not a directory (os error 20)"
  | invalidUtf8 => "stream did not contain valid UTF-8"
  | other reason => reason

inductive Failure where
  | invalidConfiguration (field reason : String)
  | parse (error : Json.Error)
  | file (path : String) (fault : FileFault)
deriving DecidableEq

namespace Failure

/-- What the failure stems from, if from something else. -/
def source? : Failure → Option String
  | invalidConfiguration .. => none
  | parse error => some error.message
  | file _ fault => some fault.text

def message : Failure → String
  | invalidConfiguration field reason => "invalid configuration: " ++ field ++ ": " ++ reason
  | parse error => "failed to parse JSON: " ++ error.message
  | file path fault => "I/O error on '" ++ path ++ "': " ++ fault.text

def isInvalidConfiguration : Failure → Bool
  | invalidConfiguration .. => true
  | _ => false

end Failure

end CycleBench
