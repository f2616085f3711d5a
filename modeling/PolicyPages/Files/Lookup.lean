import PolicyPages.Files.Error
import PolicyPages.Files.Tree

/-!
# From paths to places

A path is followed name by name, from the root of a tree if it is absolute and from the working
directory otherwise. Links on the way are followed, forty at most; a link at the end is followed if
the operation asks for it, or if a separator stands after it. `..` in the root stays in the root.
-/

namespace PolicyPages.Files

/-- How many links may be followed. -/
def maxLinks : Nat := 40

/-- How many bytes a path may have, and a name in it. -/
def maxPathLength : Nat := 4095

/-- How many bytes a name may have. -/
def maxNameLength : Nat := 255

/-- The names of a path. A separator at the end is shown by an empty name. -/
def steps (path : Path) : List FileName :=
  path.segments.filter (· ≠ []) ++
    (if path.units.getLast? = some Path.separator then [[]] else [])

/-- What a path is looked up for. -/
inductive Purpose where
  /-- What is there, with or without following a link at the end. -/
  | find (followLast : Bool)
  /-- A file, which may have to be made. -/
  | write
deriving DecidableEq

/-- Where a path leads: to something, or to a name that is free in a directory. -/
inductive Target where
  | found (place : Place) (node : Node)
  | free (directory : Place) (name : FileName)
deriving DecidableEq

/-- How far names lead without following a link. -/
inductive Stretch where
  | done (target : Target)
  /-- To a link in a directory, with the names that are left. -/
  | link (directory : Place) (target : Path) (rest : List FileName)

/-- Whether a link before these names is followed. -/
def follows (purpose : Purpose) (rest : List FileName) : Bool :=
  !rest.isEmpty || purpose ≠ .find false

/-- Follows names from a place up to the next link. -/
def stretch (tree : Tree) (purpose : Purpose) : Place → List FileName → Except Error Stretch
  | place, [] =>
    match tree.at? place with
    | some node => .ok (.done (.found place node))
    | none => .error .notFound
  | place, name :: rest =>
    if !tree.isDirectory place then .error .notDirectory
    else if name = [] || name = Path.dot then stretch tree purpose place rest
    else if name = Path.dotDot then stretch tree purpose place.dropLast rest
    else if purpose = .write && rest = [[]] then .error .isDirectory
    else if maxNameLength < name.bytes.length then .error .nameTooLong
    else
      match tree.at? (place ++ [name]) with
      | none => if rest = [] then .ok (.done (.free place name)) else .error .notFound
      | some (.link target) =>
        if follows purpose rest then .ok (.link place target rest)
        else .ok (.done (.found (place ++ [name]) (.link target)))
      | some _ => stretch tree purpose (place ++ [name]) rest

/-- Follows names from a place, and `links` links at most. -/
def lookUpFrom (tree : Tree) (purpose : Purpose) :
    (links : Nat) → Place → List FileName → Except Error Target
  | links, place, names =>
    match stretch tree purpose place names with
    | .error error => .error error
    | .ok (.done target) => .ok target
    | .ok (.link directory target rest) =>
      match links with
      | 0 => .error .tooManyLinks
      | links + 1 =>
        let start := if target.isAbsolute then [] else directory
        lookUpFrom tree purpose links start (steps target ++ rest)

/-- Whether a path can be used at all: it holds no NUL, is not empty and not too long. -/
def checkPath (path : Path) : Except Error Unit :=
  if path.units.contains (.char '\x00') then .error .nulInName
  else if path.isEmpty then .error .notFound
  else if maxPathLength < (FileName.bytes path.units).length then .error .nameTooLong
  else .ok ()

namespace Tree

/-- Where a path leads. -/
def lookUp (tree : Tree) (purpose : Purpose) (path : Path) : Except Error Target := do
  checkPath path
  lookUpFrom tree purpose maxLinks (tree.start path) (steps path)

/-- What a path leads to. -/
def find (tree : Tree) (followLast : Bool) (path : Path) : Except Error (Place × Node) := do
  match ← tree.lookUp (.find followLast) path with
  | .found place node => .ok (place, node)
  | .free _ _ => .error .notFound

end Tree

end PolicyPages.Files
