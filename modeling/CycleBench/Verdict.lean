import CycleBench.Trap

/-!
Verdicts: the eight outcomes of a run, and the classification of a trap record as one of them.
The result register decides only after a test-end trap; every other cause is a fault.
-/

namespace CycleBench

inductive Verdict where
  | pass
  | fail
  | undefinedResult
  | illegalInstruction
  | instructionAddrMisaligned
  | loadAddrMisaligned
  | storeAddrMisaligned
  | undefinedError
deriving DecidableEq, Inhabited

namespace Verdict

def all : List Verdict :=
  [pass, fail, undefinedResult, illegalInstruction, instructionAddrMisaligned,
    loadAddrMisaligned, storeAddrMisaligned, undefinedError]

/-- The label printed in reports. -/
def label : Verdict → String
  | pass => "PASS"
  | fail => "FAIL"
  | undefinedResult => "UNDEFINED RESULT"
  | illegalInstruction => "ILLEGAL INSTRUCTION"
  | instructionAddrMisaligned => "INSTRUCTION ADDR MISALIGNED"
  | loadAddrMisaligned => "LOAD ADDR MISALIGNED"
  | storeAddrMisaligned => "STORE ADDR MISALIGNED"
  | undefinedError => "UNDEFINED ERROR"

/-- The name used in documents. -/
def name : Verdict → String
  | pass => "PASS"
  | fail => "FAIL"
  | undefinedResult => "UNDEFINED_RESULT"
  | illegalInstruction => "ILLEGAL_INSTRUCTION"
  | instructionAddrMisaligned => "INSTRUCTION_ADDR_MISALIGNED"
  | loadAddrMisaligned => "LOAD_ADDR_MISALIGNED"
  | storeAddrMisaligned => "STORE_ADDR_MISALIGNED"
  | undefinedError => "UNDEFINED_ERROR"

def json (verdict : Verdict) : String :=
  "\"" ++ verdict.name ++ "\""

def isPass (verdict : Verdict) : Bool :=
  verdict = pass

end Verdict

/-- The verdict of a run that ends with this result register and trap cause. -/
def classify (result cause : Int8) : Verdict :=
  if Cause.isTestEnd cause then
    if result = TrapRecord.resultPass then .pass
    else if result = TrapRecord.resultFail then .fail
    else .undefinedResult
  else if cause = Cause.illegalInstruction then .illegalInstruction
  else if cause = Cause.instructionAddressMisaligned then .instructionAddrMisaligned
  else if cause = Cause.loadAddressMisaligned then .loadAddrMisaligned
  else if cause = Cause.storeAddressMisaligned then .storeAddrMisaligned
  else .undefinedError

def TrapRecord.verdict (trap : TrapRecord) : Verdict :=
  classify trap.resultCode trap.causeCode

end CycleBench
