import PolicyPages.Source.Grouping
import PolicyPages.Source.Line
import PolicyPages.Text.Lines

/-!
# Extracting the annotations of a policy module

A metadata block is a marker line and the comment lines right after it. It documents the next
statement of the module: the declaration of the package, or the head of a rule. Statements without a
block before them are passed over.

A module is read in three steps: its lines are told apart, blocks and statements are numbered as
`Item`s, and each block is joined with the statement after it. How the body of a block is decoded is
a parameter of the last step.
-/

namespace PolicyPages.Source

/-- A metadata block: the line of its marker, counted from one, and its body. -/
structure Block where
  row : Nat
  body : List Char
deriving DecidableEq, Repr

/-- What extraction keeps of a module. -/
inductive Item where
  | block (block : Block)
  | package (row : Nat) (segments : List String)
  | statement (row : Nat) (text : List Char)
deriving DecidableEq, Repr

/-- The line of an item, counted from one. -/
def Item.row : Item → Nat
  | .block found => found.row
  | .package row _ | .statement row _ => row

/-- The texts of the comments at the front, each with a line end. -/
def bodyText : List Line → List Char
  | .comment text :: rest => text ++ '\n' :: bodyText rest
  | _ => []

/-- The blocks and statements of lines that are numbered from `row` on. -/
def itemsFrom : (row : Nat) → List Line → List Item
  | _, [] => []
  | row, .marker :: rest => .block ⟨row, bodyText rest⟩ :: itemsFrom (row + 1) rest
  | row, .package segments :: rest => .package row segments :: itemsFrom (row + 1) rest
  | row, .statement text :: rest => .statement row text :: itemsFrom (row + 1) rest
  | row, .blank :: rest | row, .comment _ :: rest => itemsFrom (row + 1) rest

/-- The lines of a module's text. -/
def linesOf (content : List Char) : List Line :=
  (Text.lines content).map Line.ofText

/-- The blocks and statements of a module's text. -/
def items (content : List Char) : List Item :=
  itemsFrom 1 (linesOf content)

/-- What a block documents: the package, or the rule with a name. -/
inductive Declaration where
  | package
  | rule (name : String)
deriving DecidableEq, Repr

/-- The scope that a declaration has. -/
def Declaration.scope : Declaration → Scope
  | package => .package
  | rule _ => .rule

/-- The last segment of the target path, which only a rule has. -/
def Declaration.tail : Declaration → List String
  | package => []
  | rule name => [name]

/-- The first segment of every target path. -/
def rootSegment : String := "data"

/-- The decoder of the bodies of blocks. -/
abbrev Decoder := List Char → Except BodyFault Metadata

/-- The scope of a block's metadata, which has to be that of the declaration. -/
def checkScope (declaration : Declaration) : Option String → Except Fault Scope
  | none => .ok declaration.scope
  | some keyword =>
    match Scope.ofKeyword? keyword with
    | none => .error (.unsupportedScope keyword)
    | some scope =>
      if scope = declaration.scope then .ok scope
      else .error (.scopeMismatch scope declaration.scope)

/-- The annotation of a block. A fault is one of the block's line. -/
def annotate (decode : Decoder) (path : Path) (package : Option (List String)) (block : Block)
    (declaration : Declaration) : Except ParseError Annotation :=
  let fail (fault : Fault) : Except ParseError Annotation := .error ⟨path, block.row, fault⟩
  match decode block.body with
  | .error fault => fail (.body fault)
  | .ok metadata =>
    match checkScope declaration metadata.scope, package with
    | .error fault, _ => fail fault
    | .ok _, none => fail .beforePackage
    | .ok scope, some segments =>
      let packageTarget := rootSegment :: segments
      .ok {
        scope
        title := metadata.title.getD ""
        description := metadata.description.getD ""
        custom := metadata.custom
        targetPath := packageTarget ++ declaration.tail
        location := {
          file := path
          row := block.row
          packagePath := ".".intercalate packageTarget } }

/-- Joins blocks with the statements after them. `package` is the package declared so far, and
`pending` a block that waits for its statement. -/
def annotateItems (decode : Decoder) (path : Path) :
    (package : Option (List String)) → (pending : Option Block) → List Item →
      Except ParseError (List Annotation)
  | _, none, [] => .ok []
  | _, some block, [] | _, some block, .block _ :: _ => .error ⟨path, block.row, .unattached⟩
  | package, none, .block block :: rest => annotateItems decode path package (some block) rest
  | some _, _, .package row _ :: _ => .error ⟨path, row, .duplicatePackage⟩
  | none, none, .package _ segments :: rest => annotateItems decode path (some segments) none rest
  | none, some block, .package _ segments :: rest => do
    let note ← annotate decode path (some segments) block .package
    let others ← annotateItems decode path (some segments) none rest
    return note :: others
  | package, none, .statement _ _ :: rest => annotateItems decode path package none rest
  | package, some block, .statement row text :: rest =>
    match ruleName? text with
    | none => .error ⟨path, row, .notAnnotatable (String.ofList text)⟩
    | some name => do
      let note ← annotate decode path package block (.rule name)
      let others ← annotateItems decode path package none rest
      return note :: others

/-- The annotations of a module's text, with a given decoder of bodies. -/
def annotationsWith (decode : Decoder) (path : Path) (content : String) :
    Except ParseError (List Annotation) := do
  let annotations ← annotateItems decode path none none (items content.toList)
  checkGrouping path annotations
  return annotations

/-- The annotations of a module's text, in the order of the text. -/
def annotations (path : Path) (content : String) : Except ParseError (List Annotation) :=
  annotationsWith Metadata.ofText path content

end PolicyPages.Source
