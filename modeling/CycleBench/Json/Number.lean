import CycleBench.Binary64.Decimal
import CycleBench.Json.Reader

/-!
Numbers: their spelling, split into sign, digits, fraction and exponent, and the value it
stands for. A spelling without fraction and exponent is an integer when it fits into 64 bits;
every other one is a floating-point number.
-/

namespace CycleBench.Json

/-- The parts of a spelled number, as digits. -/
structure Numeral where
  negative : Bool
  whole : List Char
  /-- The digits after the point, if there is one. -/
  fraction : Option (List Char)
  /-- Whether the exponent is negative, and its digits. -/
  exponent : Option (Bool × List Char)
deriving DecidableEq

namespace Numeral

/-- Takes digits while there are any. -/
def digits : Reader (List Char) :=
  fun text => .ok ⟨text.takeWhile Char.isDigit, text.dropWhile Char.isDigit,
    (List.dropWhile_suffix _).length_le⟩

/-- What is next, without skipping blanks. -/
def look : Reader (Option Char) :=
  fun text => .ok ⟨text.head?, text, length_le_self text⟩

/-- The digits before the point, the first of them taken already: a zero stands alone. -/
def wholeFrom (first : Char) : Reader (List Char) := do
  if first = '0' then
    match ← look with
    | some d => if d.isDigit then .failNext .invalidNumber else return ['0']
    | none => return ['0']
  else
    return first :: (← digits)

/-- The digits behind a minus sign; `atEnd` is the complaint when the text ends too early. -/
def wholeAfterSign (atEnd : Reason) : Reader (List Char) := do
  match ← look with
  | none => .failNext atEnd
  | some c =>
    if c.isDigit then
      Reader.skip
      wholeFrom c
    else .failNext .invalidNumber

def readFraction (atEnd : Reason) : Reader (Option (List Char)) := do
  match ← look with
  | some '.' =>
    Reader.skip
    match ← digits with
    | [] =>
      match ← look with
      | none => .failNext atEnd
      | some _ => .failNext .invalidNumber
    | ds => return some ds
  | _ => return none

def readExponent (atEnd : Reason) : Reader (Option (Bool × List Char)) := do
  let marked ← look
  if marked = some 'e' || marked = some 'E' then
    Reader.skip
    let sign ← look
    if sign = some '-' || sign = some '+' then Reader.skip
    match ← digits with
    | [] =>
      match ← look with
      | none => .failNext atEnd
      | some _ => .failNext .invalidNumber
    | ds => return some (sign = some '-', ds)
  else return none

/-- A number begins with a digit or a minus sign. -/
def isStart (c : Char) : Bool :=
  c = '-' || c.isDigit

/-- Takes a number off the text, its first character taken already. -/
def readFrom (atEnd : Reason) (first : Char) : Reader Numeral := do
  let negative := first = '-'
  let whole ← if negative then wholeAfterSign atEnd else wholeFrom first
  let fraction ← readFraction atEnd
  let exponent ← readExponent atEnd
  return { negative, whole, fraction, exponent }

end Numeral

def digitValue (c : Char) : Nat :=
  c.toNat - '0'.toNat

/-- The number that decimal digits spell. -/
def decimalValue (digits : List Char) : Nat :=
  digits.foldl (fun n d => 10 * n + digitValue d) 0

/-- One more than the greatest 64-bit natural number. -/
def naturalLimit : Nat := Nat.pow 2 64

/-- The value of a number. -/
inductive Number where
  | natural (n : Nat)
  /-- The integer `-n`. -/
  | negative (n : Nat)
  | floating (below : Bool) (magnitude : Binary64)
deriving DecidableEq

namespace Number

/-- A significand below the 64-bit limit, and a power of ten. -/
structure Scaled where
  significand : Nat
  exponent : Int
  /-- No further digit goes into the significand. -/
  closed : Bool

/-- A digit before the point; from the first that does not fit, digits only count. -/
def Scaled.pushWhole (x : Scaled) (digit : Char) : Scaled :=
  let wider := 10 * x.significand + digitValue digit
  if x.closed || naturalLimit ≤ wider then { x with exponent := x.exponent + 1, closed := true }
  else { x with significand := wider }

/-- A digit after the point; from the first that does not fit, digits are dropped. -/
def Scaled.pushFraction (x : Scaled) (digit : Char) : Scaled :=
  let wider := 10 * x.significand + digitValue digit
  if x.closed || naturalLimit ≤ wider then { x with closed := true }
  else { x with significand := wider, exponent := x.exponent - 1 }

/-- The significand and the power of ten of a numeral, its exponent left aside. -/
def scaled (numeral : Numeral) : Scaled :=
  let whole := numeral.whole.foldl Scaled.pushWhole ⟨0, 0, false⟩
  (numeral.fraction.getD []).foldl Scaled.pushFraction { whole with closed := false }

/-- The greatest power of ten that is scaled by in one step. -/
def greatestPower : Nat := 308

/-- Divides by a power of ten, in steps that each round. -/
def shrink (x : Binary64) (power : Nat) : Option Binary64 :=
  if _ : greatestPower < power then
    if x.significand = 0 then some x
    else do
      let step ← Binary64.ofRatio (Nat.pow 10 greatestPower) 1
      let x ← x.div step
      shrink x (power - greatestPower)
  else do x.div (← Binary64.ofRatio (Nat.pow 10 power) 1)
termination_by power
decreasing_by exact Nat.sub_lt (Nat.zero_lt_of_lt ‹_›) (by decide)

/-- The significand times a power of ten, or nothing when that is too large. -/
def scaleBy (significand : Nat) (exponent : Int) : Option Binary64 := do
  let x ← Binary64.ofRatio significand 1
  if exponent < 0 then shrink x exponent.natAbs
  else if exponent.toNat ≤ greatestPower then
    x.mul (← Binary64.ofRatio (Nat.pow 10 exponent.toNat) 1)
  else if significand = 0 then some x
  else none

/-- The limit of exponents, which have 32 bits. -/
def exponentLimit : Nat := Nat.pow 2 31

/-- What is left of the digits of an exponent just after the one that takes it to the limit,
if there is one; `value` is what the digits before them spell. -/
def overflow? (value : Nat) : List Char → Option (List Char)
  | [] => none
  | digit :: rest =>
    let value := 10 * value + digitValue digit
    if exponentLimit ≤ value then some rest else overflow? value rest

/-- The floating-point number of a numeral that ends where `rest` begins. -/
def floatingOf (numeral : Numeral) (rest : List Char) : Except Fault Number :=
  let x := scaled numeral
  let finish (exponent : Int) : Except Fault Number :=
    match scaleBy x.significand exponent with
    | some magnitude => .ok (floating numeral.negative magnitude)
    | none => .error (Fault.here .numberOutOfRange rest)
  match numeral.exponent with
  | none => finish x.exponent
  | some (down, digits) =>
    match overflow? 0 digits with
    | some later =>
      if x.significand = 0 || down then .ok (floating numeral.negative Binary64.zero)
      else .error (Fault.here .numberOutOfRange (later ++ rest))
    | none =>
      let exponent : Int := decimalValue digits
      finish (if down then x.exponent - exponent else x.exponent + exponent)

/-- The value of a numeral that ends where `rest` begins. Minus zero, and what is below the
64-bit integers, is floating. -/
def ofNumeral (numeral : Numeral) (rest : List Char) : Except Fault Number :=
  let n := decimalValue numeral.whole
  if numeral.fraction = none ∧ numeral.exponent = none ∧ n < naturalLimit then
    if !numeral.negative then .ok (natural n)
    else if n = 0 || naturalLimit / 2 < n then floatingOf numeral rest
    else .ok (negative n)
  else floatingOf numeral rest

/-- Takes a number off the text, its first character taken already, and finds its value. -/
def readFrom (first : Char) : Reader Number := fun text =>
  match Numeral.readFrom .endInValue first text with
  | .error fault => .error fault
  | .ok taken =>
    match ofNumeral taken.value taken.rest with
    | .error fault => .error fault
    | .ok number => .ok ⟨number, taken.rest, taken.bounded⟩

/-- A number as the value found in a place for something else. -/
def found : Number → Found
  | natural n => .integer n
  | negative n => .integer (-n)
  | floating below magnitude =>
    .floating ((if below then "-" else "") ++ magnitude.shortest.text)

end Number

end CycleBench.Json
