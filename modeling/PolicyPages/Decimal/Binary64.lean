/-!
# Binary floating point with 64 bits

The numbers of the interchange format with a 53-bit significand and an 11-bit exponent, held by
meaning: a sign, a whole significand and a power of two. All arithmetic is on natural numbers, so
each result is the exact one, rounded once: to the nearest, and from half way to the neighbour whose
significand is even.

* `Magnitude` is a finite number without its sign, in its one normal form.
* `Magnitude.ofRatio?` rounds a quotient; it has no answer beyond the finite range.
* `Magnitude.ofDecimal?` rounds a decimal numeral.
-/

namespace PolicyPages.Decimal

/-- The finite number `significand * 2 ^ exponent`. In normal form the exponent is between -1074 and
971, the significand is below `2 ^ 53`, and it is at least `2 ^ 52` unless the exponent is -1074. -/
structure Magnitude where
  significand : Nat
  exponent : Int
deriving DecidableEq, Repr

/-- A number with 64 bits: finite with its sign (so zero has two), infinite, or not a number. -/
inductive Binary64 where
  | finite (negative : Bool) (magnitude : Magnitude)
  | infinity (negative : Bool)
  | nan
deriving DecidableEq, Repr

namespace Magnitude

/-- The lowest power of two, that of zero and of the subnormal numbers. -/
def lowest : Int := -1074

/-- The highest power of two of a finite number. -/
def highest : Int := 971

/-- Zero. -/
def zero : Magnitude := ⟨0, lowest⟩

/-- Whether this is zero. -/
def isZero (a : Magnitude) : Bool :=
  a.significand == 0

/-- A number that is `num / den`, with `den` not zero. -/
structure Ratio where
  num : Nat
  den : Nat

/-- `n * base ^ power` as a quotient of natural numbers. -/
def Ratio.scaled (n base : Nat) (power : Int) : Ratio :=
  ⟨n * base.pow power.toNat, base.pow (-power).toNat⟩

/-- The quotient rounded to a whole number, from half way to the even one. -/
def Ratio.round (r : Ratio) : Nat :=
  let whole := r.num / r.den
  let twice := 2 * (r.num % r.den)
  if twice < r.den || (twice == r.den && whole % 2 == 0) then whole else whole + 1

/-- The greatest power of two that is not above a quotient other than zero. -/
def Ratio.log2 (r : Ratio) : Int :=
  let guess : Int := r.num.log2 - r.den.log2
  if r.num * Nat.pow 2 (-guess).toNat < r.den * Nat.pow 2 guess.toNat then guess - 1 else guess

/-- The nearest finite number to a quotient, unless the quotient rounds to infinity. -/
def ofRatio? (r : Ratio) : Option Magnitude :=
  if r.num = 0 then some zero
  else
    let exponent := max (r.log2 - 52) lowest
    let significand :=
      Ratio.round
        ⟨r.num * Nat.pow 2 (-exponent).toNat, r.den * Nat.pow 2 exponent.toNat⟩
    let rounded : Magnitude :=
      if significand = Nat.pow 2 53 then ⟨Nat.pow 2 52, exponent + 1⟩ else ⟨significand, exponent⟩
    if rounded.exponent ≤ highest then some rounded else none

/-- The nearest number to a natural number. -/
def ofNat? (n : Nat) : Option Magnitude :=
  ofRatio? ⟨n, 1⟩

/-- The value as an exact quotient. -/
def toRatio (a : Magnitude) : Ratio :=
  Ratio.scaled a.significand 2 a.exponent

/-- The product, rounded. -/
def mul? (a b : Magnitude) : Option Magnitude :=
  ofRatio? (Ratio.scaled (a.significand * b.significand) 2 (a.exponent + b.exponent))

/-- The quotient, rounded; the divisor is not zero. -/
def div? (a b : Magnitude) : Option Magnitude :=
  let power := a.exponent - b.exponent
  ofRatio? ⟨a.significand * Nat.pow 2 power.toNat, b.significand * Nat.pow 2 (-power).toNat⟩

/-- The power of ten with a natural exponent, rounded. -/
def tenPow? (exponent : Nat) : Option Magnitude :=
  ofNat? (Nat.pow 10 exponent)

/-- The number of decimal digits of a natural number; zero has none. -/
def decimalLength (n : Nat) : Nat :=
  if n = 0 then 0 else (Nat.toDigits 10 n).length

/-- The nearest number to `digits * 10 ^ exponent`. Beyond `10 ^ 400` and below `10 ^ -400` the
outcome is known without the power of ten. -/
def ofDecimal? (digits : Nat) (exponent : Int) : Option Magnitude :=
  let size := decimalLength digits + exponent
  if digits = 0 || size < -400 then some zero
  else if 400 < size then none
  else ofRatio? (Ratio.scaled digits 10 exponent)

end Magnitude

namespace Binary64

/-- A sign on a number that may have left the finite range. -/
def signed (negative : Bool) : Option Magnitude → Binary64
  | some magnitude => .finite negative magnitude
  | none => .infinity negative

/-- Whether the number is neither infinite nor undefined. -/
def isFinite : Binary64 → Bool
  | finite .. => true
  | _ => false

/-- Equality of numbers, where the two zeros are equal and an undefined number equals itself. -/
def sameNumber : Binary64 → Binary64 → Bool
  | finite s a, finite t b => (s == t && a == b) || (a.isZero && b.isZero)
  | a, b => a == b

end Binary64

end PolicyPages.Decimal
