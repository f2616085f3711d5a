import PolicyPages.Yaml.Cell

/-!
# Block scalars

A block scalar begins with a header: `|` keeps its lines and `>` folds them; a sign says what becomes
of the line ends at its end, and a digit how far it is indented. Without a digit the first line that
is not blank gives the indentation.
-/

namespace PolicyPages.Yaml

/-- What becomes of the line ends at the end of a block scalar. -/
inductive Chomping where
  /-- None is kept. -/
  | strip
  /-- The first is kept. -/
  | clip
  /-- All are kept. -/
  | keep
deriving DecidableEq, Repr

/-- The header of a block scalar. -/
structure BlockHeader where
  chomping : Chomping
  /-- The written indentation, relative to the block around it. -/
  indentation : Option Nat

namespace BlockHeader

/-- The sign of a chomping. -/
def sign? : Char → Option Chomping
  | '+' => some .keep
  | '-' => some .strip
  | _ => none

/-- The digit of an indentation; zero is none. -/
def indentation? (c : Char) : Option Nat :=
  if '1' ≤ c && c ≤ '9' then some (c.toNat - '0'.toNat) else none

/-- The sign and the digit, in either order. -/
def read? (cells : List Cell) : Option (BlockHeader × List Cell) :=
  let first := Cell.charAt 0 cells
  let second := Cell.charAt 1 cells
  match sign? first with
  | some chomping =>
    if second == '0' then none
    else
      match indentation? second with
      | some n => some (⟨chomping, some n⟩, cells.drop 2)
      | none => some (⟨chomping, none⟩, cells.drop 1)
  | none =>
    if first == '0' then none
    else
      match indentation? first with
      | none => some (⟨.clip, none⟩, cells)
      | some n =>
        match sign? second with
        | some chomping => some (⟨chomping, some n⟩, cells.drop 2)
        | none => some (⟨.clip, some n⟩, cells.drop 1)

end BlockHeader

/-- Drops blanks, a comment and a line end. Something else on the line is refused. -/
def finishLine? (cells : List Cell) : Option (List Cell) :=
  let cells := cells.dropWhile fun cell => isBlank cell.char
  let cells := if Cell.charAt 0 cells == '#' then Cell.skipWhile (!endsLine ·) cells else cells
  if isBreak (Cell.charAt 0 cells) then some (cells.drop 1)
  else if Cell.charAt 0 cells == endMark then some cells
  else none

/-- A block scalar that has been read so far. -/
structure BlockState where
  /-- The column of the lines, once it is known. -/
  indent : Option Nat
  /-- The greatest column reached before the indentation is known. -/
  deepest : Nat
  /-- The text, last character first. -/
  reversed : List Char
  /-- The line end of the last line that was not empty. -/
  lead : List Char
  /-- The line ends of the empty lines after it, last first. -/
  breaks : List Char
  /-- Whether the last line that was not empty began with a blank. -/
  blankBefore : Bool
  /-- Whether the reader is inside a line. -/
  inLine : Bool

namespace BlockState

/-- What stands between the last line and one that begins with a blank or does not. Folding makes a
single line end a space, except beside a line that begins with a blank. -/
def joined (state : BlockState) (literal blank : Bool) : List Char :=
  if !literal && state.lead == ['\n'] && !state.blankBefore && !blank then
    state.breaks ++ (if state.breaks.isEmpty then ' ' :: state.reversed else state.reversed)
  else state.breaks ++ state.lead ++ state.reversed

/-- The text at the end of the scalar. -/
def text (state : BlockState) (chomping : Chomping) : List Char :=
  match chomping with
  | .strip => state.reversed.reverse
  | .clip => (state.lead ++ state.reversed).reverse
  | .keep => (state.breaks ++ state.lead ++ state.reversed).reverse

end BlockState

/-- Reads a block scalar on. `least` is the least column its lines may have. The result is the state
at its end and what follows. -/
def blockFrom (literal : Bool) (least : Nat) (state : BlockState) :
    List Cell → Option (BlockState × List Cell)
  | [] => some (state, [])
  | cell :: rest =>
    let c := cell.char
    if state.inLine then
      if isBreak c then
        blockFrom literal least { state with lead := [c], inLine := false } rest
      else if c == endMark then some ({ state with inLine := false }, cell :: rest)
      else blockFrom literal least { state with reversed := c :: state.reversed } rest
    else
      let before := match state.indent with
        | none => true
        | some indent => cell.column < indent
      let state := { state with deepest := max state.deepest cell.column }
      if before && c == ' ' then blockFrom literal least state rest
      else if before && c == '\t' then none
      else if isBreak c then
        blockFrom literal least { state with breaks := c :: state.breaks } rest
      else
        let indent := state.indent.getD (max state.deepest least)
        let state := { state with indent := some indent }
        if cell.column == indent && c != endMark then
          let reversed := c :: state.joined literal (isBlank c)
          blockFrom literal least
            { state with reversed, lead := [], breaks := [], blankBefore := isBlank c, inLine := true }
            rest
        else some (state, cell :: rest)

/-- Reads a block scalar after its first character. `parent` is the column of the block around it,
or -1. -/
def blockScalar? (literal : Bool) (parent : Int) (cells : List Cell) :
    Option (List Char × List Cell) := do
  let (header, rest) ← BlockHeader.read? cells
  let rest ← finishLine? rest
  let indent := header.indentation.map fun n => (max parent 0).toNat + n
  let least := max (parent + 1).toNat 1
  let (state, rest) ← blockFrom literal least ⟨indent, 0, [], [], [], false, false⟩ rest
  some (state.text header.chomping, rest)

end PolicyPages.Yaml
