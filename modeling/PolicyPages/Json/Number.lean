import PolicyPages.Json.Token
import PolicyPages.Json.Value

/-!
# The number of a numeral

A numeral with neither fraction nor exponent that fits 64 bits is a whole number. Every other
numeral is a binary floating-point number, computed in two roundings: the leading digits that fit 64
bits are rounded once, and then scaled once by a rounded power of ten. So the last bit may differ
from that of the nearest number. A numeral beyond the finite range has no number.
-/

namespace PolicyPages.Json

open PolicyPages.Decimal

namespace Numeral

/-- Appends digits to a significand for as long as it fits 64 bits; gives the digits left over. -/
def gather : (significand : Nat) → List Nat → Nat × List Nat
  | significand, [] => (significand, [])
  | significand, d :: rest =>
    if 10 * significand + d < Nat.pow 2 64 then gather (10 * significand + d) rest
    else (significand, d :: rest)

/-- Scales a number by a power of ten. Powers beyond the finite range are taken in parts of
`10 ^ 308`, until nothing is left of the number. -/
def scale? (a : Magnitude) (power : Int) : Option Magnitude :=
  if power.natAbs ≤ 308 then do
    let factor ← Magnitude.tenPow? power.natAbs
    if 0 ≤ power then a.mul? factor else a.div? factor
  else if a.isZero then some a
  else if 0 ≤ power then none
  else do
    scale? (← a.div? (← Magnitude.tenPow? 308)) (power + 308)
termination_by power.natAbs
decreasing_by omega

/-- The numeral as a whole number, if it has neither fraction nor exponent and fits 64 bits. Zero
with a sign is none of them. -/
def integer? (numeral : Numeral) : Option Integer :=
  if numeral.fraction = [] && numeral.exponent.isNone then
    let n := natOfDigits numeral.whole
    if numeral.negative then
      if n = 0 then none else Integer.ofInt? (-n)
    else Integer.ofInt? n
  else none

/-- The numeral as a floating-point number without its sign. -/
def magnitude? (numeral : Numeral) : Option Magnitude := do
  let (leading, wholeLeft) := gather 0 numeral.whole
  let (significand, fractionLeft) := gather leading numeral.fraction
  let used : Int := numeral.fraction.length - fractionLeft.length
  let power : Int := wholeLeft.length - used + numeral.exponent.getD 0
  scale? (← Magnitude.ofNat? significand) power

/-- The value of a numeral. -/
def value? (numeral : Numeral) : Option Value :=
  match numeral.integer? with
  | some n => some (.integer n)
  | none => numeral.magnitude?.map fun a => .float (.finite numeral.negative a)

end Numeral

end PolicyPages.Json
