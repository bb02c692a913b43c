import LuauWorkspace.Number.Binary64

/-! # The shortest decimal that reads back

Of all decimals that round to a given number, the ones with the fewest digits, and of those the
nearest to the number. A number of digits is tried by testing the two neighbours of the number on
the grid of decimals with so many digits. -/

namespace LuauWorkspace

/-- The decimal `± digits * 10 ^ exponent`. -/
structure Decimal where
  negative : Bool
  digits : Nat
  exponent : Int
deriving DecidableEq, Inhabited

namespace Binary64

/-- Compare `a * 10 ^ e` with `b * 2 ^ f`. -/
def compareDecimal (a : Nat) (e : Int) (b : Nat) (f : Int) : Ordering :=
  compare (a * tenTo e.toNat * twoTo (-f).toNat) (b * twoTo f.toNat * tenTo (-e).toNat)

/-- Whether the decimal `c * 10 ^ e` rounds to the number. The ends of the interval belong to it
when the mantissa is even. -/
def reads (x : Binary64) (c : Nat) (e : Int) : Bool :=
  let quarter := x.exponent - 2
  let low :=
    if x.mantissa = twoTo 52 ∧ leastExponent < x.exponent then 4 * x.mantissa - 1
    else 4 * x.mantissa - 2
  let high := 4 * x.mantissa + 2
  let even := x.mantissa % 2 = 0
  (match compareDecimal c e low quarter with
    | .gt => true
    | .eq => even
    | .lt => false) &&
  match compareDecimal c e high quarter with
  | .lt => true
  | .eq => even
  | .gt => false

/-- The largest `c` with `c * 10 ^ e` at most the number. -/
def gridFloor (x : Binary64) (e : Int) : Nat :=
  (x.mantissa * twoTo x.exponent.toNat * tenTo (-e).toNat) /
    (tenTo e.toNat * twoTo (-x.exponent).toNat)

/-- Whether the number is nearer to `(c + 1) * 10 ^ e` than to `c * 10 ^ e`. -/
def nearerAbove (x : Binary64) (c : Nat) (e : Int) : Bool :=
  compareDecimal (2 * c + 1) e (2 * x.mantissa) x.exponent == .lt

/-- The point of the grid `10 ^ e` that reads back and is nearest to the number. -/
def onGrid? (x : Binary64) (e : Int) : Option Nat :=
  let below := gridFloor x e
  match reads x below e && below != 0, reads x (below + 1) e with
  | true, true => some (if nearerAbove x below e then below + 1 else below)
  | true, false => some below
  | false, true => some (below + 1)
  | false, false => none

/-- The count of decimal digits before the point, zero or negative for a number below one. -/
def magnitude (x : Binary64) : Int :=
  let guess : Int := ((Nat.log2 x.mantissa : Int) + x.exponent) * 30103 / 100000
  let rise (k : Int) : Int :=
    if compareDecimal 1 k x.mantissa x.exponent == .gt then k else k + 1
  rise (rise (rise (guess - 1)))

/-- The first grid, from coarse to fine, on which a decimal reads back. -/
def search (x : Binary64) (top : Int) : Nat → Nat → Nat × Int
  | 0, digits => (gridFloor x (top - digits), top - digits)
  | fuel + 1, digits =>
    match onGrid? x (top - digits) with
    | some c => (c, top - digits)
    | none => search x top fuel (digits + 1)

/-- A decimal without zeros at the end of its digits. -/
def stripZeros : Nat → Nat → Int → Nat × Int
  | 0, c, e => (c, e)
  | fuel + 1, c, e => if c % 10 = 0 ∧ c ≠ 0 then stripZeros fuel (c / 10) (e + 1) else (c, e)

/-- The shortest decimal that rounds to the number, and of those the nearest. -/
def shortest (x : Binary64) : Decimal :=
  if x.mantissa = 0 then ⟨x.negative, 0, 0⟩
  else
    let (c, e) := search x (magnitude x) 18 1
    let (c, e) := stripZeros 20 c e
    ⟨x.negative, c, e⟩

end Binary64

/-! ## Writing decimals -/

namespace Decimal

/-- The decimal digits of a natural number. -/
def digitsOf (n : Nat) : List Char := Nat.toDigits 10 n

/-- The exponent of the first digit. -/
def leading (d : Decimal) : Int := d.exponent + ((digitsOf d.digits).length - 1 : Nat)

/-- All digits in their places, with a point when there is a fraction. -/
def positional (d : Decimal) : String :=
  let digits := digitsOf d.digits
  let text :=
    if 0 ≤ d.exponent then digits ++ List.replicate d.exponent.toNat '0'
    else
      let places := (-d.exponent).toNat
      if places < digits.length then
        digits.take (digits.length - places) ++ '.' :: digits.drop (digits.length - places)
      else ['0', '.'] ++ List.replicate (places - digits.length) '0' ++ digits
  (if d.negative then "-" else "") ++ String.ofList text

/-- One digit, the others after a point, and the signed power of ten. -/
def scientific (d : Decimal) : String :=
  let text :=
    match digitsOf d.digits with
    | first :: rest@(_ :: _) => first :: '.' :: rest
    | digits => digits
  let power :=
    if d.leading < 0 then '-' :: digitsOf (-d.leading).toNat else '+' :: digitsOf d.leading.toNat
  (if d.negative then "-" else "") ++ String.ofList (text ++ 'e' :: power)

end Decimal

end LuauWorkspace
