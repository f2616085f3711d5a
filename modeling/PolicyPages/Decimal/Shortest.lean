import PolicyPages.Decimal.Binary64

/-!
# The shortest decimal that reads back

A finite number is named by every decimal that lies closer to it than to its neighbours. `shortest`
gives the one with the fewest digits, and of several such the nearest.

The decimals that name the number form an interval around it. For one digit, two digits and so on,
the two points of that decimal grid next to the number are tried: if any point of the grid lies in
the interval, so does one of these two. Seventeen digits always suffice.
-/

namespace PolicyPages.Decimal

/-- The number `digits * 10 ^ exponent`. -/
structure Numeral where
  digits : Nat
  exponent : Int
deriving DecidableEq, Repr

namespace Magnitude

/-- The greatest `p` with `10 ^ p ≤ r`, for a quotient in the range of the finite numbers. -/
def Ratio.log10 (r : Ratio) : Int :=
  let atLeast (p : Int) : Bool :=
    r.den * Nat.pow 10 p.toNat ≤ r.num * Nat.pow 10 (-p).toNat
  let guess := Int.fdiv (r.log2 * 30103) 100000
  if atLeast (guess + 1) then guess + 1 else if atLeast guess then guess else guess - 1

/-- The interval of the decimals that read back as a number, in quarters of its last binary place.
The interval below a power of two is half as wide, and the ends belong to it when the significand is
even. -/
def reads (a : Magnitude) (numeral : Numeral) : Bool :=
  let low := 4 * a.significand -
    if a.significand = Nat.pow 2 52 && lowest < a.exponent then 1 else 2
  let high := 4 * a.significand + 2
  -- both sides of `digits * 10 ^ exponent` against `quarters * 2 ^ (a.exponent - 2)`
  let power := a.exponent - 2
  let decimal :=
    numeral.digits * Nat.pow 10 numeral.exponent.toNat * Nat.pow 2 (-power).toNat
  let quarters (n : Nat) :=
    n * Nat.pow 2 power.toNat * Nat.pow 10 (-numeral.exponent).toNat
  if a.significand % 2 = 0 then quarters low ≤ decimal && decimal ≤ quarters high
  else quarters low < decimal && decimal < quarters high

/-- The point of a decimal grid that names the number and is nearest to it, if one does. -/
def onGrid? (a : Magnitude) (exponent : Int) : Option Numeral :=
  let value := a.toRatio
  let num := value.num * Nat.pow 10 (-exponent).toNat
  let den := value.den * Nat.pow 10 exponent.toNat
  let below : Numeral := ⟨num / den, exponent⟩
  let above : Numeral := ⟨num / den + 1, exponent⟩
  let twice := 2 * (num % den)
  let preferBelow := twice < den || (twice == den && below.digits % 2 == 0)
  match a.reads below, a.reads above with
  | true, true => some (if preferBelow then below else above)
  | true, false => some below
  | false, true => some above
  | false, false => none

/-- The first grid that has a numeral for the number, from the coarsest `exponent` on. -/
def firstGrid (a : Magnitude) : (tries : Nat) → (exponent : Int) → Numeral
  | 0, exponent => ⟨(a.toRatio.num * Nat.pow 10 (-exponent).toNat) / a.toRatio.den, exponent⟩
  | tries + 1, exponent =>
    match a.onGrid? exponent with
    | some numeral => numeral
    | none => firstGrid a tries (exponent - 1)

/-- The shortest numeral that reads back as the number. -/
def shortest (a : Magnitude) : Numeral :=
  if a.isZero then ⟨0, 0⟩ else a.firstGrid 17 a.toRatio.log10

end Magnitude

end PolicyPages.Decimal
