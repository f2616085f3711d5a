import PolicyPages.Path

/-!
# Trees of files

A tree of files as a list of places with what is there, and the place from which relative paths are
followed. The root is always a directory, and so is every place above another one; a tree that is built
with the operations of `Files.Access` has an entry for each of them.

A tree has files, directories and symbolic links, and nothing else. There are no permissions: whatever is
there can be read, and whatever is a directory can be entered and listed. There are no hard links: a file
is at one place. Names are compared as they are, with their case.
-/

namespace PolicyPages.Files

/-- The content of a file: a text, or bytes that are none. -/
inductive Content where
  | text (text : String)
  | binary (bytes : List UInt8)
deriving DecidableEq, Repr

namespace Content

/-- The content that has these bytes. -/
def ofBytes (bytes : List UInt8) : Content :=
  match Text.decodeText? bytes with
  | some characters => .text characters
  | none => .binary bytes

/-- The bytes of a content. -/
def bytes : Content → List UInt8
  | text characters => characters.toList.flatMap String.utf8EncodeChar
  | binary bytes => bytes

end Content

/-- What may be at a place. -/
inductive Node where
  | file (content : Content)
  | directory
  | link (target : Path)
deriving DecidableEq, Repr

/-- A place in a tree: the names of the directories down to it and its own name. -/
abbrev Place := List FileName

/-- A tree of files, and the place at which relative paths begin. -/
structure Tree where
  entries : List (Place × Node)
  workingDirectory : Place
deriving DecidableEq

namespace Tree

/-- A root with nothing in it. Relative paths begin there. -/
def empty : Tree := ⟨[], []⟩

/-- What is at a place. -/
def at? (tree : Tree) (place : Place) : Option Node :=
  if place = [] then some .directory else tree.entries.lookup place

/-- Where a path begins: an absolute one at the root. -/
def start (tree : Tree) (path : Path) : Place :=
  if path.isAbsolute then [] else tree.workingDirectory

/-- Whether a place is a directory. -/
def isDirectory (tree : Tree) (place : Place) : Bool :=
  tree.at? place = some .directory

/-- Replaces what is at a place, or adds it. -/
def put (tree : Tree) (place : Place) (node : Node) : Tree :=
  if (tree.entries.lookup place).isSome then
    { tree with
      entries := tree.entries.map fun entry => if entry.1 = place then (place, node) else entry }
  else { tree with entries := tree.entries ++ [(place, node)] }

/-- The name of a place that is right below a directory. -/
def childName? (directory place : Place) : Option FileName :=
  match place.getLast? with
  | some name => if place.dropLast = directory then some name else none
  | none => none

/-- Whether a name may stand before another: by their bytes. -/
def inOrder (a b : FileName) : Bool :=
  a.bytes ≤ b.bytes

/-- The names in a directory, in the order of their bytes. -/
def children (tree : Tree) (directory : Place) : List FileName :=
  (tree.entries.filterMap fun entry => childName? directory entry.1).mergeSort inOrder

end Tree

end PolicyPages.Files
