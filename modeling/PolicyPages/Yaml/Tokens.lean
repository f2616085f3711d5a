import PolicyPages.Yaml.Property
import PolicyPages.Yaml.Scalar.Plain

/-!
# From text to tokens

The reader keeps the columns of the open blocks and, for each open flow collection, the place where
a key may have begun: a key without a mark of its own is known as one only at the colon after it.
Its token is then put in at that place, and before it the beginning of a block if the key is indented
deeper than the block around it. A key takes at most one line and 1024 characters.
-/

namespace PolicyPages.Yaml

/-- A place where a key may have begun. -/
structure KeyPlace where
  /-- Whether only a key can stand there. -/
  required : Bool
  /-- How many tokens precede it. -/
  position : Nat
  cell : Cell

/-- The state of the reader. -/
structure Reader where
  rest : List Cell
  tokens : Array Token
  /-- The column of the innermost open block; -1 outside of all. -/
  indent : Int
  /-- The columns of the blocks around it, innermost first. -/
  outer : List Int
  /-- Whether a key may begin here. -/
  keyAllowed : Bool
  /-- The place where a key may have begun, at the present flow level. -/
  keyPlace : Option KeyPlace
  /-- The same at the levels around it, innermost first. -/
  outerPlaces : List (Option KeyPlace)

namespace Reader

/-- Before the first character. -/
def start (cells : List Cell) : Reader :=
  ⟨cells, #[], -1, [], true, none, []⟩

/-- Whether the reader is inside a flow collection. -/
def inFlow (r : Reader) : Bool :=
  !r.outerPlaces.isEmpty

/-- The character `n` places ahead. -/
def charAt (r : Reader) (n : Nat) : Char :=
  Cell.charAt n r.rest

/-- The column of the next character. -/
def column (r : Reader) : Nat :=
  (Cell.here r.rest).column

/-- Adds a token and goes on at the given place. -/
def emit (r : Reader) (token : Token) (rest : List Cell) : Reader :=
  { r with tokens := r.tokens.push token, rest }

/-! ### Blocks -/

/-- Opens a block at a column deeper than the block around it. Its token goes to the end, or to the
place where its first key began. -/
def openBlock (r : Reader) (column : Nat) (token : Token) (position : Option Nat) : Reader :=
  if r.inFlow || (column : Int) ≤ r.indent then r
  else
    let tokens := match position with
      | some n => r.tokens.insertIdxIfInBounds n token
      | none => r.tokens.push token
    { r with tokens, indent := column, outer := r.indent :: r.outer }

/-- Closes the blocks that are indented deeper than a column. -/
def closeBlocksFrom (column : Int) (indent : Int) (outer : List Int) (tokens : Array Token) :
    Int × List Int × Array Token :=
  match outer with
  | [] => (indent, [], tokens)
  | next :: outer' =>
    if column < indent then closeBlocksFrom column next outer' (tokens.push .blockEnd)
    else (indent, outer, tokens)

/-- Closes the blocks that are indented deeper than a column; in a flow collection there are none. -/
def closeBlocks (r : Reader) (column : Int) : Reader :=
  if r.inFlow then r
  else
    let (indent, outer, tokens) := closeBlocksFrom column r.indent r.outer r.tokens
    { r with indent, outer, tokens }

/-! ### Keys -/

/-- Gives up the place where a key may have begun. A required key may not be given up. -/
def dropKey? (r : Reader) : Option Reader :=
  match r.keyPlace with
  | some ⟨true, _, _⟩ => none
  | _ => some { r with keyPlace := none }

/-- Remembers that a key may begin here. -/
def markKey? (r : Reader) : Option Reader :=
  if r.keyAllowed then do
    let required := !r.inFlow && r.indent == r.column
    let r ← r.dropKey?
    some { r with keyPlace := some ⟨required, r.tokens.size, Cell.here r.rest⟩ }
  else some r

/-- What remains of a place for a key at a later cell. -/
def refresh? (now : Cell) (place : Option KeyPlace) : Option (Option KeyPlace) :=
  match place with
  | none => some none
  | some found =>
    if found.cell.line < now.line || found.cell.index + 1024 < now.index then
      if found.required then none else some none
    else some place

/-- Gives up the places from which a key would be too long. -/
def dropStaleKeys? (r : Reader) : Option Reader := do
  let now := Cell.here r.rest
  some { r with
    keyPlace := ← refresh? now r.keyPlace
    outerPlaces := ← r.outerPlaces.mapM (refresh? now) }

/-! ### The single tokens -/

/-- A bracket or brace that opens a flow collection. -/
def openFlow? (r : Reader) (token : Token) : Option Reader := do
  let r ← r.markKey?
  let r := { r with keyPlace := none, outerPlaces := r.keyPlace :: r.outerPlaces, keyAllowed := true }
  some (r.emit token (r.rest.drop 1))

/-- A bracket or brace that closes a flow collection. -/
def closeFlow? (r : Reader) (token : Token) : Option Reader := do
  let r ← r.dropKey?
  let r := match r.outerPlaces with
    | [] => r
    | place :: outer => { r with keyPlace := place, outerPlaces := outer }
  some ({ r with keyAllowed := false }.emit token (r.rest.drop 1))

/-- A comma between the entries of a flow collection. -/
def flowEntry? (r : Reader) : Option Reader := do
  let r ← r.dropKey?
  some ({ r with keyAllowed := true }.emit .flowEntry (r.rest.drop 1))

/-- A mark that in a block may only stand where a key may; it opens a block if it is indented
deeper. -/
def indicator? (r : Reader) (block : Token) : Option Reader :=
  if r.inFlow then some r
  else if r.keyAllowed then some (r.openBlock r.column block none)
  else none

/-- A dash before an entry of a block sequence. -/
def blockEntry? (r : Reader) : Option Reader := do
  let r ← r.indicator? .blockSequenceStart
  let r ← r.dropKey?
  some ({ r with keyAllowed := true }.emit .blockEntry (r.rest.drop 1))

/-- A question mark before a key. -/
def explicitKey? (r : Reader) : Option Reader := do
  let r ← r.indicator? .blockMappingStart
  let r ← r.dropKey?
  some ({ r with keyAllowed := !r.inFlow }.emit .key (r.rest.drop 1))

/-- A colon before a value. -/
def value? (r : Reader) : Option Reader :=
  match r.keyPlace with
  | some place =>
    let r := { r with tokens := r.tokens.insertIdxIfInBounds place.position .key }
    let r := r.openBlock place.cell.column .blockMappingStart (some place.position)
    some ({ r with keyPlace := none, keyAllowed := false }.emit .value (r.rest.drop 1))
  | none => do
    let r ← r.indicator? .blockMappingStart
    some ({ r with keyAllowed := !r.inFlow }.emit .value (r.rest.drop 1))

/-- A token that may be, or may begin, a key. -/
def keyLike? (r : Reader) (read : List Cell → Option (Token × List Cell)) : Option Reader := do
  let r ← r.markKey?
  let (token, rest) ← read r.rest
  some ({ r with keyAllowed := false }.emit token rest)

/-- A mark between documents, or a directive. -/
def betweenDocuments? (r : Reader) (read : List Cell → Option (Token × List Cell)) :
    Option Reader := do
  let r ← (r.closeBlocks (-1)).dropKey?
  let (token, rest) ← read r.rest
  some ({ r with keyAllowed := false }.emit token rest)

/-- A block scalar. -/
def blockScalar? (r : Reader) (literal : Bool) : Option Reader := do
  let r ← r.dropKey?
  let (text, rest) ← Yaml.blockScalar? literal r.indent (r.rest.drop 1)
  some ({ r with keyAllowed := true }.emit (.scalar text false) rest)

/-- A plain scalar. After one that ends at the end of a line a key may begin. -/
def plainScalar? (r : Reader) : Option Reader := do
  let r ← r.markKey?
  let found ← Yaml.plainScalar? r.inFlow (r.indent + 1).toNat r.rest
  some ({ r with keyAllowed := found.broken }.emit (.scalar found.text true) found.rest)

/-- Whether a plain scalar may begin with a character, given the one after it. -/
def beginsPlain (inFlow : Bool) (c next : Char) : Bool :=
  !(endsWord c || "-?:,[]\x7b\x7d#&*!|>'\"%@\x60".toList.contains c)
    || (c == '-' && !isBlank next)
    || (!inFlow && (c == '?' || c == ':') && !endsWord next)

/-- Reads the token that begins at the next character, which is no blank. -/
def token? (r : Reader) : Option Reader :=
  let c := r.charAt 0
  let next := r.charAt 1
  let one (token : Token) (n : Nat) := fun cells : List Cell => some (token, cells.drop n)
  if r.column == 0 && c == '%' then r.betweenDocuments? fun cells => directive? (cells.drop 1)
  else if r.column == 0 && Cell.isRule '-' r.rest then r.betweenDocuments? (one .documentStart 3)
  else if r.column == 0 && Cell.isRule '.' r.rest then r.betweenDocuments? (one .documentEnd 3)
  else if c == '[' then r.openFlow? .flowSequenceStart
  else if c == '{' then r.openFlow? .flowMappingStart
  else if c == ']' then r.closeFlow? .flowSequenceEnd
  else if c == '}' then r.closeFlow? .flowMappingEnd
  else if c == ',' then r.flowEntry?
  else if c == '-' && endsWord next then r.blockEntry?
  else if c == '?' && (r.inFlow || endsWord next) then r.explicitKey?
  else if c == ':' && (r.inFlow || endsWord next) then r.value?
  else if c == '*' then
    r.keyLike? fun cells => (anchorName? (cells.drop 1)).map fun found => (.reference found.1, found.2)
  else if c == '&' then
    r.keyLike? fun cells => (anchorName? (cells.drop 1)).map fun found => (.anchor found.1, found.2)
  else if c == '!' then r.keyLike? (tag? r.inFlow)
  else if c == '|' && !r.inFlow then r.blockScalar? true
  else if c == '>' && !r.inFlow then r.blockScalar? false
  else if c == '\'' then
    r.keyLike? fun cells =>
      (quotedScalar? true (cells.drop 1)).map fun found => (.scalar found.1 false, found.2)
  else if c == '"' then
    r.keyLike? fun cells =>
      (quotedScalar? false (cells.drop 1)).map fun found => (.scalar found.1 false, found.2)
  else if beginsPlain r.inFlow c next then r.plainScalar?
  else none

/-! ### The whole text -/

/-- Goes on to the next token: past spaces, comments and line ends, after which a key may begin. A
tab is passed over where no key may begin. -/
def skipToToken (inFlow : Bool) : (keyAllowed inComment : Bool) → List Cell → Bool × List Cell
  | keyAllowed, _, [] => (keyAllowed, [])
  | keyAllowed, inComment, cell :: rest =>
    let c := cell.char
    if isBreak c then skipToToken inFlow (keyAllowed || !inFlow) false rest
    else if c == endMark then (keyAllowed, cell :: rest)
    else if inComment then skipToToken inFlow keyAllowed true rest
    else if c == '\ufeff' && cell.index == 0 then skipToToken inFlow keyAllowed false rest
    else if c == ' ' || (c == '\t' && (inFlow || !keyAllowed)) then
      skipToToken inFlow keyAllowed false rest
    else if c == '#' then skipToToken inFlow keyAllowed true rest
    else (keyAllowed, cell :: rest)

/-- Reads up to `count` tokens, or to the end of the text. -/
def readTokens? : (count : Nat) → Reader → Option (Array Token)
  | 0, _ => none
  | count + 1, r => do
    let (keyAllowed, rest) := skipToToken r.inFlow r.keyAllowed false r.rest
    let r ← { r with keyAllowed, rest }.dropStaleKeys?
    let r := r.closeBlocks r.column
    if r.charAt 0 == endMark then
      let r ← (r.closeBlocks (-1)).dropKey?
      some r.tokens
    else readTokens? count (← r.token?)

end Reader

/-- The tokens of a text. Each takes at least one character. -/
def tokens? (text : List Char) : Option (List Token) := do
  let cells ← Cell.list? text
  (← Reader.readTokens? cells.length (.start cells)).toList

end PolicyPages.Yaml
