import PolicyPages.Annotation
import PolicyPages.Json.Printing
import PolicyPages.Json.Reading

/-!
# Annotations as JSON

An annotation is an object with one member for each of its fields, in their order, and its location
another such object. The reader also takes either record as the bare list of its fields in order. It needs every
field, and takes no field twice; members it does not know it passes over unread.
-/

namespace PolicyPages

open Json (Value Written)

/-! ### Writing -/

/-- A location as an object. A file name that is no text is shown with replacement characters. -/
def Location.toJson (location : Location) : Value :=
  .object
    [("file", .string location.file.display),
      ("row", match Json.Integer.ofInt? location.row with
        | some n => .integer n
        | none => .null),
      ("package_path", .string location.packagePath)]

/-- An annotation as an object. -/
def Annotation.toJson (note : Annotation) : Value :=
  .object
    [("scope", .string note.scope.keyword),
      ("title", .string note.title),
      ("description", .string note.description),
      ("custom", .object note.custom),
      ("target_path", .array (note.targetPath.map .string)),
      ("location", note.location.toJson)]

/-! ### Reading -/

namespace Json.Written

/-- The fields of a record in order: the members with these names, each exactly once, or the items
of a list that is as long. -/
def fields? (names : List String) : Written → Option (List Written)
  | array items => if items.length = names.length then some items else none
  | object members =>
    if members.all (·.1.isSome) then
      names.mapM fun name =>
        match members.filter (·.1 == some name) with
        | [(_, item)] => some item
        | _ => none
    else none
  | _ => none

/-- The text of a quoted text. -/
def text? : Written → Option String
  | string content => content
  | _ => none

/-- The texts of a list of quoted texts. -/
def texts? : Written → Option (List String)
  | array items => items.mapM text?
  | _ => none

/-- The natural number of a numeral that is a whole number without a sign and fits 64 bits. -/
def nat? : Written → Option Nat
  | number numeral =>
    match numeral.integer? with
    | some n => if 0 ≤ n.val then some n.val.toNat else none
    | none => none
  | _ => none

/-- The dictionary of an object that stands inside `levels` other arrays and objects. -/
def dictionary? (levels : Nat) (tree : Written) : Option (Dictionary Value) :=
  if tree.depth + levels ≤ Value.maxDepth then
    match tree with
    | object members => (memberValues? members).map Dictionary.ofList
    | _ => none
  else none

end Json.Written

/-- A scope: its keyword, or an object that has the keyword as its only key, with the null value. -/
def Scope.ofJson? : Written → Option Scope
  | .string content => content.bind ofKeyword?
  | .object [(key, .null)] => key.bind ofKeyword?
  | _ => none

/-- The location of a written text. -/
def Location.ofJson? (tree : Written) : Option Location := do
  match ← tree.fields? ["file", "row", "package_path"] with
  | [file, row, packagePath] =>
    some ⟨.ofText (← file.text?), ← row.nat?, ← packagePath.text?⟩
  | _ => none

/-- The annotation of a written text that stands inside `levels` arrays. -/
def Annotation.ofJson? (levels : Nat) (tree : Written) : Option Annotation := do
  match ← tree.fields? ["scope", "title", "description", "custom", "target_path", "location"] with
  | [scope, title, description, custom, targetPath, location] =>
    some {
      scope := ← Scope.ofJson? scope
      title := ← title.text?
      description := ← description.text?
      custom := ← custom.dictionary? (levels + 1)
      targetPath := ← targetPath.texts?
      location := ← Location.ofJson? location }
  | _ => none

/-- The annotation of a text. -/
def Annotation.ofText? (text : String) : Option Annotation := do
  ofJson? 0 (← Written.ofText? text)

/-- The annotations of a text that is a list of them. -/
def Annotation.listOfText? (text : String) : Option (List Annotation) := do
  match ← Written.ofText? text with
  | .array items => items.mapM (ofJson? 1)
  | _ => none

end PolicyPages
