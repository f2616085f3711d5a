import PolicyPages.Text.Utf8

/-!
# Paths

A path is a text in which `/` separates the names; a name may hold bytes that are no character. Two
paths are compared by their components, so repeated separators, a separator at the end and a `.`
between other components do not count.

* `join` appends a relative path; an absolute one takes the place of what it is joined to.
* `startsWith` compares whole components.
-/

namespace PolicyPages

/-- A path as it was written. -/
structure Path where
  units : List Text.Unit8
deriving DecidableEq, Repr

/-- One name in a path. -/
abbrev FileName := List Text.Unit8

namespace Path

open Text (Unit8)

instance : Inhabited Path := ⟨⟨[]⟩⟩

/-- The path written as a text. -/
def ofText (text : String) : Path :=
  ⟨text.toList.map .char⟩

/-- The path of a sequence of bytes. -/
def ofBytes (bytes : List UInt8) : Path :=
  ⟨Unit8.decode bytes⟩

/-- The path as it is shown, each stretch of stray bytes as one replacement character. -/
def display (path : Path) : String :=
  String.ofList (path.units.map Unit8.shown)

/-- The path as a text, if it is one. -/
def text? (path : Path) : Option String :=
  (Unit8.chars? path.units).map String.ofList

@[simp] theorem display_ofText (text : String) : (ofText text).display = text := by
  simp [ofText, display, Unit8.shown, Function.comp_def]

theorem text?_eq_some_iff {path : Path} {text : String} :
    path.text? = some text ↔ path = ofText text := by
  rw [text?, Option.map_eq_some_iff]
  constructor
  · rintro ⟨chars, isText, rfl⟩
    rw [ofText, String.toList_ofList, ← Unit8.chars?_eq_some_iff.1 isText]
  · rintro rfl
    exact ⟨text.toList, Unit8.chars?_eq_some_iff.2 rfl, String.ofList_toList⟩

/-- The separator of names. -/
def separator : Unit8 := .char '/'

/-- Whether nothing is written. -/
def isEmpty (path : Path) : Bool :=
  path.units.isEmpty

/-- Whether the path begins at the root. -/
def isAbsolute (path : Path) : Bool :=
  path.units.head? = some separator

/-- The path `path` below `base`; an absolute path stays as it is. -/
def join (base path : Path) : Path :=
  if path.isAbsolute then path
  else if base.isEmpty || base.units.getLast? = some separator then ⟨base.units ++ path.units⟩
  else ⟨base.units ++ separator :: path.units⟩

/-- What stands between the separators. -/
def segments (path : Path) : List FileName :=
  path.units.splitOn separator

/-- A part of a path that counts in comparisons. -/
inductive Component where
  | root
  /-- A `.` at the front of a relative path. -/
  | here
  /-- A `..`. -/
  | up
  | name (units : FileName)
deriving DecidableEq, Repr

/-- The name of the directory itself. -/
def dot : FileName := [.char '.']

/-- The name of the directory above. -/
def dotDot : FileName := [.char '.', .char '.']

/-- The component of a segment that is not at the front; empty segments and `.` have none. -/
def component? (segment : FileName) : Option Component :=
  if segment = [] || segment = dot then none
  else if segment = dotDot then some .up
  else some (.name segment)

/-- The components of a path in order. -/
def components (path : Path) : List Component :=
  let named := path.segments.filterMap component?
  if path.isAbsolute then .root :: named
  else if path.segments.head? = some dot then .here :: named
  else named

/-- A component as it is written. -/
def Component.units : Component → FileName
  | root => [separator]
  | here => dot
  | up => dotDot
  | name units => units

/-- The path with the given components. -/
def ofComponents : List Component → Path
  | [] => ⟨[]⟩
  | .root :: rest => ⟨separator :: [separator].intercalate (rest.map Component.units)⟩
  | first :: rest => ⟨[separator].intercalate ((first :: rest).map Component.units)⟩

/-- The path without its last component; the root and the empty path have nothing above. -/
def parent? (path : Path) : Option Path :=
  match path.components.getLast? with
  | none | some .root => none
  | some _ => some (ofComponents path.components.dropLast)

/-- The name at the end of a path, or the whole path if it ends in no name. -/
def fileName (path : Path) : FileName :=
  match path.components.getLast? with
  | some (.name units) => units
  | _ => path.units

/-- Whether a path lies at or below another, component by component. -/
def startsWith (path base : Path) : Bool :=
  base.components.isPrefixOf path.components

end Path

/-- The bytes of a name. -/
def FileName.bytes (name : FileName) : List UInt8 :=
  name.flatMap Text.Unit8.bytes

end PolicyPages
