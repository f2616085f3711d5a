import PolicyPages.Json.Value
import PolicyPages.Path
import PolicyPages.Text.Affix

/-!
# Annotations

An annotation is one metadata block in normal form: what it describes, its texts, the free-form
custom metadata, the path of the annotated package or rule, and the place of its declaration.
Everything after extraction works on these records alone.
-/

namespace PolicyPages

open Json (Value)

/-- What an annotation describes. -/
inductive Scope where
  | package
  | rule
deriving DecidableEq, Repr

/-- The keyword of a scope. -/
def Scope.keyword : Scope → String
  | package => "package"
  | rule => "rule"

/-- The scope of a keyword. -/
def Scope.ofKeyword? : String → Option Scope
  | "package" => some package
  | "rule" => some rule
  | _ => none

theorem Scope.ofKeyword?_eq_some_iff {text : String} {scope : Scope} :
    ofKeyword? text = some scope ↔ text = scope.keyword := by
  constructor
  · intro h
    unfold ofKeyword? at h
    split at h <;> simp_all [keyword] <;> subst h <;> rfl
  · rintro rfl
    cases scope <;> rfl

/-- Where an annotation is declared: the file below its root, the line of the block counted from
one, and the dotted path of the declaring package. -/
structure Location where
  file : Path
  row : Nat
  packagePath : String
deriving DecidableEq

/-- One metadata block in normal form. The target path begins with the segment `data`. -/
structure Annotation where
  scope : Scope
  title : String
  description : String
  custom : Dictionary Value
  targetPath : List String
  location : Location

namespace Annotation

/-- The target path with dots between its segments. -/
def dottedTarget (note : Annotation) : String :=
  ".".intercalate note.targetPath

/-- A custom entry that is a text. -/
def customText? (note : Annotation) (key : String) : Option String :=
  (Dictionary.get? note.custom key).bind Value.string?

theorem customText?_eq_some_iff {note : Annotation} {key text : String} :
    note.customText? key = some text ↔ Dictionary.get? note.custom key = some (.string text) := by
  unfold customText?
  cases Dictionary.get? note.custom key with
  | none => simp
  | some value => cases value <;> simp [Value.string?]

/-- The rule's stable short name. -/
def shortName? (note : Annotation) : Option String :=
  note.customText? "short_name"

theorem shortName?_eq_some_iff {note : Annotation} {shortName : String} :
    note.shortName? = some shortName ↔
      Dictionary.get? note.custom "short_name" = some (.string shortName) :=
  customText?_eq_some_iff

/-- The collections a rule is tagged with, in the order of the tags and with repetitions. An entry
that is no list has none, and neither have the items of it that are no texts. -/
def tags (note : Annotation) : List String :=
  match (Dictionary.get? note.custom "collections").bind Value.array? with
  | some items => items.filterMap Value.string?
  | none => []

/-- Whether this is the annotation of a package. -/
def isPackage (note : Annotation) : Bool :=
  note.scope = .package

end Annotation

/-- Whether a dotted package path belongs to a collection: some segment of it other than the first
and the last is `collection`. -/
def isCollectionPath (packagePath : String) : Bool :=
  Text.occursIn ".collection.".toList packagePath.toList

/-- Whether the annotation is declared in a module that defines a collection. -/
def Annotation.inCollectionModule (note : Annotation) : Bool :=
  isCollectionPath note.location.packagePath

end PolicyPages
