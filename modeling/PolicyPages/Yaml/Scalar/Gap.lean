import PolicyPages.Yaml.Cell

/-!
# Gaps in scalars

The blanks and line ends between two words of a scalar. Without a line end the blanks stay as they
are. With line ends the blanks go, a single line end becomes a space, and of several the first goes.
Line and paragraph separators are kept wherever they stand.
-/

namespace PolicyPages.Yaml

/-- A gap that has been read so far. -/
structure Gap where
  /-- The blanks before the first line end, last first. -/
  blanks : List Char
  /-- Whether a line has ended. -/
  broken : Bool
  /-- The first line end, unless it was escaped. -/
  lead : Option Char
  /-- The further line ends, last first. -/
  more : List Char

namespace Gap

/-- Nothing stands between the words. -/
def none : Gap := ⟨[], false, .none, []⟩

/-- An escaped line end, which does not count itself. -/
def escaped : Gap := ⟨[], true, .none, []⟩

/-- Whether nothing has been read. -/
def isNone (gap : Gap) : Bool :=
  gap.blanks.isEmpty && !gap.broken

/-- The gap with one more blank or line end. -/
def push (gap : Gap) (c : Char) : Gap :=
  if isBreak c then
    if gap.broken then { gap with more := c :: gap.more }
    else { gap with blanks := [], broken := true, lead := some c }
  else if gap.broken then gap
  else { gap with blanks := c :: gap.blanks }

/-- What a gap leaves between the words, in front of reversed text. -/
def fill (gap : Gap) (reversed : List Char) : List Char :=
  if gap.broken then
    match gap.lead with
    | some '\n' => if gap.more.isEmpty then ' ' :: reversed else gap.more ++ reversed
    | some c => gap.more ++ c :: reversed
    | .none => gap.more ++ reversed
  else gap.blanks ++ reversed

end Gap

end PolicyPages.Yaml
