/-!
Trap records: the result register and the trap cause of a core, sampled as signed bytes.
The cause codes are the exception codes of `mcause` with the interrupt bit clear.
-/

namespace CycleBench

namespace Cause

def instructionAddressMisaligned : Int8 := 0
def instructionAccessFault : Int8 := 1
def illegalInstruction : Int8 := 2
/-- Raised by `ebreak`. -/
def breakpoint : Int8 := 3
def loadAddressMisaligned : Int8 := 4
def loadAccessFault : Int8 := 5
def storeAddressMisaligned : Int8 := 6
def storeAccessFault : Int8 := 7
def environmentCallFromUMode : Int8 := 8
def environmentCallFromSMode : Int8 := 9
/-- Raised by `ecall`. -/
def environmentCallFromMMode : Int8 := 11

/-- The value a core shows before it has taken a trap. -/
def noTrap : Int8 := -1

/-- The named exception codes in ascending order. -/
def all : List Int8 :=
  [instructionAddressMisaligned, instructionAccessFault, illegalInstruction, breakpoint,
    loadAddressMisaligned, loadAccessFault, storeAddressMisaligned, storeAccessFault,
    environmentCallFromUMode, environmentCallFromSMode, environmentCallFromMMode]

/-- A test program ends with `ebreak` or `ecall`. -/
def isTestEnd (cause : Int8) : Bool :=
  cause = breakpoint || cause = environmentCallFromMMode

end Cause

structure TrapRecord where
  resultCode : Int8
  causeCode : Int8
deriving DecidableEq, Inhabited

namespace TrapRecord

/-- Result register of a test program that passed. -/
def resultPass : Int8 := 0

/-- Result register of a test program that failed. -/
def resultFail : Int8 := 1

/-- What a core shows while no trap has been taken. -/
def idle : TrapRecord := ⟨0, Cause.noTrap⟩

def text (trap : TrapRecord) : String :=
  s!"a0={trap.resultCode} mcause={trap.causeCode}"

def json (trap : TrapRecord) : String :=
  s!"\x7b\"result_code\":{trap.resultCode},\"cause_code\":{trap.causeCode}\x7d"

end TrapRecord

end CycleBench
