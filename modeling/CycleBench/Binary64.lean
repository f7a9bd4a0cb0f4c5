/-!
Nonnegative binary64 numbers as exact values: a significand below `2 ^ 53` times a power of
two. Every operation rounds its exact result to the nearest number, ties to even.
-/

namespace CycleBench

/-- The nearest natural number to `num / den`, a half going to the even neighbour. -/
def roundHalfEven (num den : Nat) : Nat :=
  let below := num / den
  let twice := 2 * (num % den)
  if twice < den || (twice = den && below % 2 = 0) then below else below + 1

/-- The value `significand * 2 ^ exponent`. -/
structure Binary64 where
  significand : Nat
  exponent : Int
deriving DecidableEq

namespace Binary64

/-- Numerator and denominator of `(num / den) * 2 ^ exponent`. -/
def scale (num den : Nat) : Int → Nat × Nat
  | .ofNat up => (num * Nat.pow 2 up, den)
  | .negSucc down => (num, den * Nat.pow 2 (down + 1))

def leastExponent : Int := -1074

def greatestExponent : Int := 971

def zero : Binary64 := ⟨0, leastExponent⟩

/-- The binary exponent at which `num / den` has 53 significant bits. -/
def exponentOf (num den : Nat) : Int :=
  let order : Int := (num.log2 : Int) - (den.log2 : Int)
  let bound := scale den 1 order
  let exponent := if num * bound.2 < bound.1 then order - 53 else order - 52
  max exponent leastExponent

/-- The number nearest to `num / den`, or nothing beyond the greatest finite number. -/
def ofRatio (num den : Nat) : Option Binary64 :=
  if num = 0 then some zero
  else
    let exponent := exponentOf num den
    let scaled := scale num den (-exponent)
    let significand := roundHalfEven scaled.1 scaled.2
    let rounded : Binary64 :=
      if significand = Nat.pow 2 53 then ⟨Nat.pow 2 52, exponent + 1⟩ else ⟨significand, exponent⟩
    if rounded.exponent ≤ greatestExponent then some rounded else none

/-- Numerator and denominator of a number. -/
def ratio (x : Binary64) : Nat × Nat :=
  scale x.significand 1 x.exponent

def mul (x y : Binary64) : Option Binary64 :=
  let a := x.ratio
  let b := y.ratio
  ofRatio (a.1 * b.1) (a.2 * b.2)

/-- The quotient by a number other than zero. -/
def div (x y : Binary64) : Option Binary64 :=
  let a := x.ratio
  let b := y.ratio
  ofRatio (a.1 * b.2) (a.2 * b.1)

end Binary64

end CycleBench
