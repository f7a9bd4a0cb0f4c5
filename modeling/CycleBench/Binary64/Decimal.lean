import CycleBench.Binary64

/-!
Decimal texts of binary64 numbers: rounded to two places, and the shortest digits that read
back as the number.
-/

namespace CycleBench

/-- A decimal number `digits * 10 ^ exponent`. -/
structure Decimal where
  digits : Nat
  exponent : Int
deriving DecidableEq

namespace Decimal

/-- Numerator and denominator of `(num / den) * 10 ^ exponent`. -/
def scale (num den : Nat) : Int → Nat × Nat
  | .ofNat up => (num * Nat.pow 10 up, den)
  | .negSucc down => (num, den * Nat.pow 10 (down + 1))

/-- The number of decimal digits. -/
def width (n : Nat) : Nat :=
  (Nat.toDigits 10 n).length

/-- The greatest `p` with `10 ^ p ≤ num / den`, for a positive ratio. -/
def decade (num den : Nat) : Int :=
  if den ≤ num then (width (num / den) : Int) - 1
  else -(width ((den + num - 1) / num - 1) : Int)

/-- Drops trailing zeros; `fuel` bounds their number. -/
def trim : Nat → Decimal → Decimal
  | 0, decimal => decimal
  | fuel + 1, decimal =>
    if decimal.digits ≠ 0 ∧ decimal.digits % 10 = 0 then
      trim fuel ⟨decimal.digits / 10, decimal.exponent + 1⟩
    else decimal

/-- Positional for decimal exponents from -5 to 15, with a digit after the point, and with an
exponent outside that range. -/
def text (decimal : Decimal) : String :=
  let digits := toString decimal.digits
  let exponent := decimal.exponent + (digits.length : Int) - 1
  let zeros (n : Nat) := String.ofList (List.replicate n '0')
  let head (n : Nat) := String.ofList (digits.toList.take n)
  let tail (n : Nat) := String.ofList (digits.toList.drop n)
  if decimal.digits = 0 then "0.0"
  else if exponent < -5 || 15 < exponent then
    let mantissa := if digits.length = 1 then digits else head 1 ++ "." ++ tail 1
    let sign := if exponent < 0 then "-" else "+"
    mantissa ++ "e" ++ sign ++ toString exponent.natAbs
  else if exponent < 0 then "0." ++ zeros (exponent.natAbs - 1) ++ digits
  else
    let whole := exponent.toNat + 1
    if digits.length ≤ whole then digits ++ zeros (whole - digits.length) ++ ".0"
    else head whole ++ "." ++ tail whole

end Decimal

namespace Binary64

/-- Whether a decimal lies among the reals that round to the number: between the midpoints to
its neighbours, which count when the significand is even. -/
def readsBack (x : Binary64) (decimal : Decimal) : Bool :=
  let narrow := x.significand = Nat.pow 2 52 && x.exponent ≠ leastExponent
  let low := scale (4 * x.significand - if narrow then 1 else 2) 1 (x.exponent - 2)
  let high := scale (4 * x.significand + 2) 1 (x.exponent - 2)
  let point := Decimal.scale decimal.digits 1 decimal.exponent
  let fromLow := (low.1 * point.2, point.1 * low.2)
  let toHigh := (point.1 * high.2, high.1 * point.2)
  if x.significand % 2 = 0 then fromLow.1 ≤ fromLow.2 && toHigh.1 ≤ toHigh.2
  else fromLow.1 < fromLow.2 && toHigh.1 < toHigh.2

/-- The nearest decimal on a grid that reads back, if the grid has one: the value lies between
two neighbours of the grid, and a tie goes to the even one. -/
def onGrid? (x : Binary64) (exponent : Int) : Option Decimal :=
  let value := x.ratio
  let scaled := Decimal.scale value.1 value.2 (-exponent)
  let below := scaled.1 / scaled.2
  let nearest := roundHalfEven scaled.1 scaled.2
  let other := if nearest = below then below + 1 else below
  if x.readsBack ⟨nearest, exponent⟩ then some ⟨nearest, exponent⟩
  else if x.readsBack ⟨other, exponent⟩ then some ⟨other, exponent⟩
  else none

/-- The decimal with the fewest digits that reads back as the number; seventeen always do. -/
def shortest (x : Binary64) : Decimal :=
  if x.significand = 0 then ⟨0, 0⟩
  else
    let value := x.ratio
    let decade := Decimal.decade value.1 value.2
    let grid (n : Nat) : Int := decade - (n : Int)
    Decimal.trim 20 (((List.range 17).findSome? fun n => x.onGrid? (grid n)).getD ⟨0, 0⟩)

/-- The value with a number of decimal places, a tie going to the even neighbour. -/
def textFixed (x : Binary64) (places : Nat) : String :=
  let value := x.ratio
  let units := roundHalfEven (Nat.pow 10 places * value.1) value.2
  let fraction := toString (units % Nat.pow 10 places)
  toString (units / Nat.pow 10 places) ++ "." ++
    String.ofList (List.replicate (places - fraction.length) '0') ++ fraction

end Binary64

end CycleBench
