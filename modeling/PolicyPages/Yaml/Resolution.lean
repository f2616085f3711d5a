import PolicyPages.Decimal.Binary64
import PolicyPages.Yaml.Value

/-!
# The values of plain scalars

A plain scalar is null, a truth value, a whole number, a floating-point number, or else a text.

* Whole numbers are decimal, or have one of the marks `0x`, `0o` and `0b`. They fit 64 bits, with a
  sign if they are negative. Those that fit only 128 bits have no value at all; beyond that they are
  floating-point numbers.
* Decimal digits with a zero in front are a text.
* A floating-point number is finite, or one of the spellings of infinity and of no number; the latter
  takes no sign.
-/

namespace PolicyPages.Yaml

open PolicyPages.Decimal

/-- What a scalar may resolve to. -/
inductive Resolution where
  | value (value : Value)
  /-- A whole number beyond what a value can hold. -/
  | tooLarge

/-- Whether the scalar is null; the empty scalar is not tested here. -/
def isNull (text : String) : Bool :=
  text == "null" || text == "Null" || text == "NULL" || text == "~"

/-- The truth value of a scalar. -/
def boolOf? (text : String) : Option Bool :=
  if text == "true" || text == "True" || text == "TRUE" then some true
  else if text == "false" || text == "False" || text == "FALSE" then some false
  else none

/-! ### Whole numbers -/

/-- The value of a digit in a base up to 16. -/
def digitOf? (base : Nat) (c : Char) : Option Nat :=
  let n :=
    if '0' ≤ c && c ≤ '9' then c.toNat - '0'.toNat
    else if 'a' ≤ c && c ≤ 'f' then c.toNat - 'a'.toNat + 10
    else if 'A' ≤ c && c ≤ 'F' then c.toNat - 'A'.toNat + 10
    else base
  if n < base then some n else none

/-- The number of a sequence of digits, of which there is at least one. -/
def natOf? (base : Nat) (text : List Char) : Option Nat :=
  if text.isEmpty then none
  else text.foldlM (fun n c => (digitOf? base c).map (base * n + ·)) 0

/-- The base that a mark names, and the digits after the mark. -/
def marked? : List Char → Option (Nat × List Char)
  | '0' :: 'x' :: rest => some (16, rest)
  | '0' :: 'o' :: rest => some (8, rest)
  | '0' :: 'b' :: rest => some (2, rest)
  | _ => none

/-- Whether this is a sequence of decimal digits with a zero in front, maybe after a sign. -/
def hasLeadingZero (text : List Char) : Bool :=
  let digits := match text with
    | '-' :: rest | '+' :: rest => rest
    | _ => text
  match digits with
  | '0' :: rest => !rest.isEmpty && rest.all Char.isDigit
  | _ => false

/-- The whole number of a scalar. A plus sign may stand before a mark or digits, and a minus sign
likewise. -/
def wholeOf? (text : List Char) : Option Int :=
  let number (digits : List Char) : Option Nat :=
    match marked? digits with
    | some (base, rest) => natOf? base rest
    | none => if hasLeadingZero text then none else natOf? 10 digits
  match text with
  | '-' :: rest => (number rest).map fun n => -(n : Int)
  | '+' :: rest => (number rest).map fun n => (n : Int)
  | _ => (number text).map fun n => (n : Int)

/-- Whether a whole number fits a number of bits, with a sign if it is negative and without one
otherwise. -/
def fitsBits (bits : Nat) (n : Int) : Bool :=
  if n < 0 then n.natAbs ≤ Nat.pow 2 (bits - 1) else n.natAbs < Nat.pow 2 bits

/-- A whole number as a value: it fits 64 bits, or not even 128. -/
def integerOf? (text : List Char) : Option Resolution :=
  match wholeOf? text with
  | none => none
  | some n =>
    if fitsBits 64 n then some (.value (.integer n))
    else if fitsBits 128 n then some .tooLarge
    else none

/-! ### Floating-point numbers -/

/-- A finite number that is written with decimal digits, maybe a point and maybe an exponent. -/
def decimalOf? (negative : Bool) (text : List Char) : Option Binary64 := do
  let whole := text.takeWhile Char.isDigit
  let rest := text.dropWhile Char.isDigit
  let (fraction, rest) := match rest with
    | '.' :: rest => (rest.takeWhile Char.isDigit, rest.dropWhile Char.isDigit)
    | _ => ([], rest)
  if whole.isEmpty && fraction.isEmpty then none
  else
    let exponent ← match rest with
      | [] => some 0
      | 'e' :: '-' :: digits | 'E' :: '-' :: digits => (natOf? 10 digits).map fun n => -(n : Int)
      | 'e' :: '+' :: digits | 'E' :: '+' :: digits => (natOf? 10 digits).map fun n => (n : Int)
      | 'e' :: digits | 'E' :: digits => (natOf? 10 digits).map fun n => (n : Int)
      | _ => none
    let digits ← natOf? 10 (whole ++ fraction)
    let magnitude ← Magnitude.ofDecimal? digits (exponent - fraction.length)
    some (.finite negative magnitude)

/-- The floating-point number of a scalar. -/
def floatOf? (text : List Char) : Option Binary64 :=
  let (negative, unsigned) := match text with
    | '-' :: rest => (true, rest)
    | '+' :: rest => (false, rest)
    | _ => (false, text)
  let spelled := String.ofList unsigned
  let whole := String.ofList text
  if spelled == ".inf" || spelled == ".Inf" || spelled == ".INF" then some (.infinity negative)
  else if whole == ".nan" || whole == ".NaN" || whole == ".NAN" then some .nan
  else decimalOf? negative unsigned

/-! ### Scalars -/

/-- The value of a plain scalar. -/
def resolvePlain (text : List Char) : Resolution :=
  let whole := String.ofList text
  if text.isEmpty || isNull whole then .value .null
  else
    match boolOf? whole with
    | some b => .value (.bool b)
    | none =>
      match integerOf? text with
      | some found => found
      | none =>
        if hasLeadingZero text then .value (.string whole)
        else
          match floatOf? text with
          | some x => .value (.float x)
          | none => .value (.string whole)

end PolicyPages.Yaml
