import PolicyPages.Text.Affix
import PolicyPages.Text.Blank

/-!
# The lines of a policy module

Extraction looks at a policy module line by line. A line is blank, the marker that begins a metadata
block, another comment, the declaration of the package, or some other statement. Blanks around a
line never count, so neither does its indentation.
-/

namespace PolicyPages.Source

open Text (dropStart? trim trimStart)

/-- A line, as far as extraction tells lines apart. -/
inductive Line where
  | blank
  /-- The comment that begins a metadata block. -/
  | marker
  /-- Another comment, without its mark and one space after it. -/
  | comment (text : List Char)
  /-- The declaration of the package with the given segments. -/
  | package (segments : List String)
  /-- Any other statement, without the blanks around it. -/
  | statement (text : List Char)
deriving DecidableEq, Repr

/-- The word of the marker. -/
def markerWord : List Char := "METADATA".toList

/-- The word that begins the declaration of a package, with the space after it. -/
def packageWord : List Char := "package ".toList

theorem packageWord_eq : packageWord = ['p', 'a', 'c', 'k', 'a', 'g', 'e', ' '] := rfl

/-- The word that may stand before the head of a rule, with the space after it. -/
def defaultWord : List Char := "default ".toList

theorem defaultWord_eq : defaultWord = ['d', 'e', 'f', 'a', 'u', 'l', 't', ' '] := rfl

/-- A comment after its mark, without one space in front. -/
def commentText (afterMark : List Char) : List Char :=
  (dropStart? [' '] afterMark).getD afterMark

/-- The segments of a package declaration: what stands between its dots, up to a comment, without
blanks around it. Empty segments do not count. -/
def packageSegments (declaration : List Char) : List String :=
  let path := trim (declaration.takeWhile (· ≠ '#'))
  (((path.splitOn '.').map trim).filter (· ≠ [])).map String.ofList

/-- What a line is. -/
def Line.ofText (text : List Char) : Line :=
  match trim text with
  | [] => blank
  | '#' :: rest =>
    if trim rest = markerWord then marker else comment (commentText ((trimStart text).drop 1))
  | statementText =>
    match dropStart? packageWord statementText with
    | some declaration => package (packageSegments declaration)
    | none => statement statementText

/-- The characters of a rule's name. -/
def isNameChar (c : Char) : Bool :=
  c.isAlphanum || c == '_'

/-- The word at the front of a statement, after a word `default`. -/
def headWord (statement : List Char) : List Char :=
  (trimStart ((dropStart? defaultWord statement).getD statement)).takeWhile isNameChar

/-- The name of the rule that a statement begins. A name does not begin with a digit, and neither
`import` nor `package` is one. -/
def ruleName? (statement : List Char) : Option String :=
  match headWord statement with
  | [] => none
  | first :: rest =>
    let name := String.ofList (first :: rest)
    if first.isDigit || name = "import" || name = "package" then none else some name

end PolicyPages.Source
