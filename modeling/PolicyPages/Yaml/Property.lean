import PolicyPages.Yaml.Scalar.Block
import PolicyPages.Yaml.Scalar.Quoted
import PolicyPages.Yaml.Token

/-!
# Anchors, tags and directives

What stands in front of a node or of a document: the names of anchors, tags with their handles, and
the two directives.
-/

namespace PolicyPages.Yaml

open Text (Unit8)

/-- Characters as the text of a tag. -/
def tagText (chars : List Char) : TagText :=
  chars.map .char

/-! ### Anchors -/

/-- What may follow the name of an anchor. -/
def endsAnchor (c : Char) : Bool :=
  endsWord c || c == '?' || c == ':' || c == ',' || c == ']' || c == '}' || c == '%' || c == '@'
    || c == '\x60'

/-- Reads the name of an anchor. -/
def anchorName? (cells : List Cell) : Option (List Char × List Cell) :=
  let name := Cell.takeWhile isNameChar cells
  let rest := Cell.skipWhile isNameChar cells
  if name.isEmpty || !endsAnchor (Cell.charAt 0 rest) then none else some (name, rest)

/-! ### Tags -/

/-- The characters of a tag; some only where brackets and commas have no other meaning. -/
def isTagChar (wide : Bool) (c : Char) : Bool :=
  isNameChar c || ";/?:@&=+$.%!~*'()".toList.contains c || (wide && ",[]".toList.contains c)

/-- The bytes of escapes in a tag: the bytes read so far, last first, and how many bytes the
character at hand still needs. -/
structure TagBytes where
  reversed : List UInt8
  missing : Nat

/-- How many bytes a character has that begins with this byte. -/
def byteLength? (b : Nat) : Option Nat :=
  if b < 0x80 then some 1
  else if 0xC0 ≤ b && b < 0xE0 then some 2
  else if 0xE0 ≤ b && b < 0xF0 then some 3
  else if 0xF0 ≤ b && b < 0xF8 then some 4
  else none

/-- One more byte that is spelled by an escape. -/
def TagBytes.escape? (found : TagBytes) (b : Nat) : Option TagBytes :=
  if found.missing = 0 then
    (byteLength? b).map fun n => ⟨UInt8.ofNat b :: found.reversed, n - 1⟩
  else if 0x80 ≤ b && b < 0xC0 then some ⟨UInt8.ofNat b :: found.reversed, found.missing - 1⟩
  else none

/-- Reads the characters of a tag. -/
def tagBytes? (wide : Bool) (found : TagBytes) : List Cell → Option (List UInt8 × List Cell)
  | cell :: high :: low :: rest =>
    if cell.char == '%' then
      match hexValue? high.char, hexValue? low.char with
      | some h, some l => do tagBytes? wide (← found.escape? (h * 16 + l)) rest
      | _, _ => none
    else if found.missing ≠ 0 then none
    else if isTagChar wide cell.char then
      let bytes := (String.utf8EncodeChar cell.char).reverse
      tagBytes? wide { found with reversed := bytes ++ found.reversed } (high :: low :: rest)
    else some (found.reversed.reverse, cell :: high :: low :: rest)
  | cell :: rest =>
    if cell.char == '%' || found.missing ≠ 0 then none
    else if isTagChar wide cell.char then
      let bytes := (String.utf8EncodeChar cell.char).reverse
      tagBytes? wide { found with reversed := bytes ++ found.reversed } rest
    else some (found.reversed.reverse, cell :: rest)
  | [] => none

/-- Reads the characters of a tag, of which there is at least one. -/
def tagChars? (wide : Bool) (cells : List Cell) : Option (TagText × List Cell) := do
  let (bytes, rest) ← tagBytes? wide ⟨[], 0⟩ cells
  if bytes.isEmpty then none else some (Unit8.decode bytes, rest)

/-- Reads a tag handle: an exclamation mark, and maybe a name and a second mark. -/
def tagHandle? (cells : List Cell) : Option (List Char × List Cell) :=
  if Cell.charAt 0 cells == '!' then
    let name := Cell.takeWhile isNameChar (cells.drop 1)
    let rest := Cell.skipWhile isNameChar (cells.drop 1)
    if Cell.charAt 0 rest == '!' then some ('!' :: name ++ ['!'], rest.drop 1)
    else some ('!' :: name, rest)
  else none

/-- Reads a tag. One that names its handle is kept in two parts, `!<…>` has the empty handle, and all
others have the handle `!`; the mark alone is the tag `!` itself. -/
def tag? (inFlow : Bool) (cells : List Cell) : Option (Token × List Cell) := do
  let (found, rest) ←
    if Cell.charAt 1 cells == '<' then do
      let (suffix, rest) ← tagChars? true (cells.drop 2)
      if Cell.charAt 0 rest == '>' then some (Token.tag [] suffix, rest.drop 1) else none
    else do
      let (handle, rest) ← tagHandle? cells
      if 2 ≤ handle.length && handle.getLast? == some '!' then
        let (suffix, rest) ← tagChars? false rest
        some (Token.tag (tagText handle) suffix, rest)
      else
        let (bytes, rest) ← tagBytes? false ⟨[], 0⟩ rest
        let suffix := tagText (handle.drop 1) ++ Unit8.decode bytes
        if suffix.isEmpty then some (Token.tag [] (tagText ['!']), rest)
        else some (Token.tag (tagText ['!']) suffix, rest)
  let next := Cell.charAt 0 rest
  if endsWord next || (inFlow && next == ',') then some (found, rest) else none

/-! ### Directives -/

/-- Reads a number of a version, of nine digits at most. -/
def versionNumber? (cells : List Cell) : Option (Nat × List Cell) :=
  let digits := Cell.takeWhile Char.isDigit cells
  if digits.isEmpty || 9 < digits.length then none
  else
    some (digits.foldl (fun n d => 10 * n + (d.toNat - '0'.toNat)) 0,
      Cell.skipWhile Char.isDigit cells)

/-- Reads the rest of a directive for the version. -/
def versionDirective? (cells : List Cell) : Option (Token × List Cell) := do
  let (major, rest) ← versionNumber? (Cell.skipWhile isBlank cells)
  if Cell.charAt 0 rest == '.' then
    let (minor, rest) ← versionNumber? (rest.drop 1)
    some (.versionDirective major minor, rest)
  else none

/-- Reads the rest of a directive for a tag handle. -/
def tagDirective? (cells : List Cell) : Option (Token × List Cell) := do
  let (handle, rest) ← tagHandle? (Cell.skipWhile isBlank cells)
  if handle ≠ ['!'] && (handle.length < 2 || handle.getLast? ≠ some '!') then none
  else if !isBlank (Cell.charAt 0 rest) then none
  else
    let (replacement, rest) ← tagChars? true (Cell.skipWhile isBlank rest)
    if endsWord (Cell.charAt 0 rest) then
      some (.tagDirective (tagText handle) replacement, rest)
    else none

/-- Reads a directive after its percent sign, up to the end of its line. -/
def directive? (cells : List Cell) : Option (Token × List Cell) := do
  let name := Cell.takeWhile isNameChar cells
  let rest := Cell.skipWhile isNameChar cells
  if endsWord (Cell.charAt 0 rest) then
    let (found, rest) ←
      if name = "YAML".toList then versionDirective? rest
      else if name = "TAG".toList then tagDirective? rest
      else none
    some (found, ← finishLine? rest)
  else none

end PolicyPages.Yaml
