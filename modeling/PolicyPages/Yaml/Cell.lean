/-!
# YAML texts with positions

A YAML text is read as a list of cells, each a character with its place in the text. Line ends are
made one here: of the five kinds only the line separator and the paragraph separator stay what they
are, since folding keeps them. The list is closed by a cell with the character NUL, which no text
may hold, so that every place in a text, its end included, is the head of a list of cells.
-/

namespace PolicyPages.Yaml

/-- A character and its place: how many characters precede it in the text, the number of its line
and its column, all counted from zero. -/
structure Cell where
  char : Char
  index : Nat
  line : Nat
  column : Nat
deriving Repr

/-- The character of the cell that closes a text. -/
def endMark : Char := '\x00'

/-- Whether a text may hold a character. -/
def isReadable (c : Char) : Bool :=
  let n := c.toNat
  n == 0x09 || n == 0x0A || n == 0x0D || (0x20 ≤ n && n ≤ 0x7E) || n == 0x85
    || (0xA0 ≤ n && n ≤ 0xD7FF) || (0xE000 ≤ n && n ≤ 0xFFFD) || 0x10000 ≤ n

/-- A line end that folding keeps. -/
def isSeparator (c : Char) : Bool :=
  c == '\u2028' || c == '\u2029'

/-- A line end. -/
def isBreak (c : Char) : Bool :=
  c == '\n' || c == '\r' || c == '\u0085' || isSeparator c

/-- A space or a tab. -/
def isBlank (c : Char) : Bool :=
  c == ' ' || c == '\t'

/-- Whether a word ends before this character: at a blank, a line end or the end of the text. -/
def endsWord (c : Char) : Bool :=
  isBlank c || isBreak c || c == endMark

/-- Whether a line ends before this character. -/
def endsLine (c : Char) : Bool :=
  isBreak c || c == endMark

/-- The characters of anchors, tag handles and directive names. -/
def isNameChar (c : Char) : Bool :=
  c.isAlphanum || c == '_' || c == '-'

namespace Cell

/-- The cells of a text from a given place on. -/
def listFrom : (index line column : Nat) → List Char → List Cell
  | index, line, column, [] => [⟨endMark, index, line, column⟩]
  | index, line, column, '\r' :: '\n' :: rest =>
    ⟨'\n', index, line, column⟩ :: listFrom (index + 2) (line + 1) 0 rest
  | index, line, column, c :: rest =>
    if isBreak c then
      ⟨if isSeparator c then c else '\n', index, line, column⟩
        :: listFrom (index + 1) (line + 1) 0 rest
    else ⟨c, index, line, column⟩ :: listFrom (index + 1) line (column + 1) rest

/-- The cells of a text, if it holds readable characters only. -/
def list? (text : List Char) : Option (List Cell) :=
  if text.all isReadable then some (listFrom 0 0 0 text) else none

/-- The character that stands `n` places ahead. -/
def charAt (n : Nat) (cells : List Cell) : Char :=
  match cells[n]? with
  | some cell => cell.char
  | none => endMark

/-- The place of the first cell; there always is one. -/
def here : List Cell → Cell
  | [] => ⟨endMark, 0, 0, 0⟩
  | cell :: _ => cell

/-- The cells from the first one whose character fails a test. -/
def skipWhile (p : Char → Bool) (cells : List Cell) : List Cell :=
  cells.dropWhile fun cell => p cell.char

/-- The characters at the front that pass a test. -/
def takeWhile (p : Char → Bool) (cells : List Cell) : List Char :=
  (cells.takeWhile fun cell => p cell.char).map Cell.char

/-- Whether three equal characters stand here as a word of their own. -/
def isRule (mark : Char) (cells : List Cell) : Bool :=
  charAt 0 cells == mark && charAt 1 cells == mark && charAt 2 cells == mark
    && endsWord (charAt 3 cells)

/-- Whether a mark between documents stands here: a line that begins with the word `---` or
`...`. -/
def isDocumentMark (cells : List Cell) : Bool :=
  (here cells).column == 0 && (isRule '-' cells || isRule '.' cells)

end Cell

end PolicyPages.Yaml
