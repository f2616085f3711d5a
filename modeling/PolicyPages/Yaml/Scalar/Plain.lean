import PolicyPages.Yaml.Scalar.Gap

/-!
# Plain scalars

A scalar without quotes ends before a colon that ends a word, before a comment, before a mark
between documents, in a flow collection before its punctuation, and in a block at a line that is not
indented deeper than the block.
-/

namespace PolicyPages.Yaml

/-- The marks that end a plain scalar inside a flow collection. -/
def isFlowMark (c : Char) : Bool :=
  c == ',' || c == '[' || c == ']' || c == '{' || c == '}'

/-- A plain scalar that has been read: its text, last character first, whether a line ended after it,
and what follows. -/
structure PlainScalar where
  reversed : List Char
  broken : Bool
  rest : List Cell

/-- The text of a plain scalar. -/
def PlainScalar.text (scalar : PlainScalar) : List Char :=
  scalar.reversed.reverse

/-- Reads a plain scalar on from reversed text and a gap after it. In a block, `indent` is the least
column of its further lines. -/
def plainFrom (inFlow : Bool) (indent : Nat) (reversed : List Char) (gap : Gap) :
    List Cell → Option PlainScalar
  | [] => some ⟨reversed, gap.broken, []⟩
  | cell :: rest =>
    let c := cell.char
    let next := Cell.charAt 0 rest
    let stop := some ⟨reversed, gap.broken, cell :: rest⟩
    if c == endMark then stop
    else if isBlank c || isBreak c then
      if c == '\t' && gap.broken && cell.column < indent then none
      else plainFrom inFlow indent reversed (gap.push c) rest
    else if !gap.isNone && !inFlow && cell.column < indent then stop
    else if Cell.isDocumentMark (cell :: rest) then stop
    else if !gap.isNone && c == '#' then stop
    else if inFlow && c == ':' && (next == '?' || isFlowMark next) then none
    else if c == ':' && endsWord next then stop
    else if inFlow && isFlowMark c then stop
    else plainFrom inFlow indent (c :: gap.fill reversed) .none rest

/-- Reads a plain scalar. -/
def plainScalar? (inFlow : Bool) (indent : Nat) (cells : List Cell) : Option PlainScalar :=
  plainFrom inFlow indent [] .none cells

end PolicyPages.Yaml
