/-! # Binary floating point numbers of 64 bits

A finite number is a sign, a mantissa below `2 ^ 53` and a power of two. `ofRatio?` rounds an exact
quotient to the nearest such number; products and quotients of numbers are exact quotients of
natural numbers and are rounded the same way. -/

namespace LuauWorkspace

/-- The power `2 ^ n`. -/
def twoTo (n : Nat) : Nat := Nat.pow 2 n

/-- The power `10 ^ n`. -/
def tenTo (n : Nat) : Nat := Nat.pow 10 n

/-- The finite number `± mantissa * 2 ^ exponent`. -/
structure Binary64 where
  negative : Bool
  mantissa : Nat
  exponent : Int
deriving DecidableEq, Inhabited

namespace Binary64

/-- The exponent of the numbers closest to zero. -/
def leastExponent : Int := -1074

/-- The exponent of the numbers farthest from zero. -/
def greatestExponent : Int := 971

/-- The numerator and denominator of `mantissa * 2 ^ exponent`. -/
def ratio (mantissa : Nat) (exponent : Int) : Nat × Nat :=
  (mantissa * twoTo exponent.toNat, twoTo (-exponent).toNat)

/-- The quotient of two natural numbers rounded to the nearest natural number, a tie to the even
one. -/
def divideEven (num den : Nat) : Nat :=
  let quotient := num / den
  let twice := 2 * (num % den)
  if den < twice ∨ (twice = den ∧ quotient % 2 = 1) then quotient + 1 else quotient

/-- The exponent that gives `num / den` a mantissa of 53 binary digits, or the least one. -/
def exponentOf (num den : Nat) : Int :=
  let guess : Int := Nat.log2 num - Nat.log2 den - 52
  let (n, d) := ratio 1 guess
  let exact := if num * d < den * n * twoTo 52 then guess - 1 else guess
  max exact leastExponent

/-- The number nearest to `num / den`, a tie to the even mantissa; none when it would be infinite.
-/
def ofRatio? (negative : Bool) (num den : Nat) : Option Binary64 :=
  if num = 0 then some ⟨negative, 0, leastExponent⟩
  else
    let exponent := exponentOf num den
    let (n, d) := ratio 1 exponent
    let mantissa := divideEven (num * d) (den * n)
    let (mantissa, exponent) :=
      if mantissa = twoTo 53 then (twoTo 52, exponent + 1) else (mantissa, exponent)
    if greatestExponent < exponent then none else some ⟨negative, mantissa, exponent⟩

/-- The number nearest to a natural number. -/
def ofNat? (n : Nat) : Option Binary64 := ofRatio? false n 1

/-- The number nearest to the product of two. -/
def mul? (x y : Binary64) : Option Binary64 :=
  let (xn, xd) := ratio x.mantissa x.exponent
  let (yn, yd) := ratio y.mantissa y.exponent
  ofRatio? (x.negative != y.negative) (xn * yn) (xd * yd)

/-- The number nearest to the quotient of two; the divisor is not zero. -/
def div? (x y : Binary64) : Option Binary64 :=
  let (xn, xd) := ratio x.mantissa x.exponent
  let (yn, yd) := ratio y.mantissa y.exponent
  ofRatio? (x.negative != y.negative) (xn * yd) (xd * yn)

/-- Whether a number is a zero of either sign. -/
def isZero (x : Binary64) : Bool := x.mantissa == 0

/-- The number with the opposite sign. -/
def neg (x : Binary64) : Binary64 := { x with negative := !x.negative }

end Binary64

end LuauWorkspace
