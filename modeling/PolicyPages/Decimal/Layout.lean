import PolicyPages.Decimal.Shortest

/-!
# How a number is laid out

A `Layout` holds the decisions of a number format: where positional notation ends, and how an
exponent is marked. `Layout.text` writes the shortest numeral of a number in it.
-/

namespace PolicyPages.Decimal

/-- The choices of a number format. The first digit's power of ten decides between the two forms:
from `positionalFrom` to below `positionalBelow` the number is written out, with at least one digit
after the point; elsewhere one digit stands before the point and an exponent with its sign
follows. -/
structure Layout where
  positionalFrom : Int
  positionalBelow : Int
  mark : String
  undefinedText : String
deriving Repr

/-- A run of the digit zero. -/
def zeros (n : Nat) : String :=
  String.ofList (List.replicate n '0')

/-- Digits in positional notation, where `point` digits stand before the point. -/
def positional (digits : String) (point : Int) : String :=
  if point ≤ 0 then "0." ++ zeros (-point).toNat ++ digits
  else
    let count := point.toNat
    if digits.length ≤ count then digits ++ zeros (count - digits.length) ++ ".0"
    else
      String.ofList (digits.toList.take count) ++ "." ++ String.ofList (digits.toList.drop count)

/-- Digits in the notation with an exponent. -/
def scientific (mark digits : String) (power : Int) : String :=
  let lead := String.ofList (digits.toList.take 1)
  let rest := String.ofList (digits.toList.drop 1)
  let sign := if power < 0 then "-" else "+"
  lead ++ (if rest.isEmpty then "" else "." ++ rest) ++ mark ++ sign ++ toString power.natAbs

/-- A natural number's digits without the zeros at their end. -/
def significantDigits (n : Nat) : String :=
  String.ofList ((Nat.toDigits 10 n).reverse.dropWhile (· == '0')).reverse

/-- The text of a number that is not negative. -/
def Layout.magnitude (layout : Layout) (a : Magnitude) : String :=
  if a.isZero then "0.0"
  else
    let numeral := a.shortest
    let power : Int := (Nat.toDigits 10 numeral.digits).length - 1 + numeral.exponent
    let digits := significantDigits numeral.digits
    if layout.positionalFrom ≤ power && power < layout.positionalBelow then
      positional digits (power + 1)
    else scientific layout.mark digits power

/-- The text of a number; a number that is not finite has one text of its own. -/
def Layout.text (layout : Layout) : Binary64 → String
  | .finite negative a => (if negative then "-" else "") ++ layout.magnitude a
  | _ => layout.undefinedText

end PolicyPages.Decimal
