import PolicyPages.Files.Lookup

/-!
# Reading and changing files

The operations on a tree. Each either does all it is asked for or leaves the tree as it is, except
that `createDirectories` keeps the directories that it has made before it fails.

What an operation does depends on the tree alone. No permission is asked for, and nothing goes wrong once a
file is open: to write it is one step. What else may stand in the way is up to a `Volume`.
-/

namespace PolicyPages.Files.Tree

/-- Whether a path leads to something. -/
def holds (tree : Tree) (path : Path) : Bool :=
  match tree.find true path with
  | .ok _ => true
  | .error _ => false

/-- Whether a path leads to a file. -/
def holdsFile (tree : Tree) (path : Path) : Bool :=
  match tree.find true path with
  | .ok (_, .file _) => true
  | _ => false

/-- Whether a path leads to a directory. -/
def holdsDirectory (tree : Tree) (path : Path) : Bool :=
  match tree.find true path with
  | .ok (_, .directory) => true
  | _ => false

/-- The text of a file. -/
def read (tree : Tree) (path : Path) : Except Error String := do
  match ← tree.find true path with
  | (_, .file (.text text)) => .ok text
  | (_, .file (.binary _)) => .error .notText
  | (_, .directory) => .error .isDirectory
  | (_, .link _) => .error .notFound

/-- Writes a file, in the place of what it holds so far. -/
def write (tree : Tree) (path : Path) (content : Content) : Except Error Tree := do
  match ← tree.lookUp .write path with
  | .found place (.file _) => .ok (tree.put place (.file content))
  | .found _ _ => .error .isDirectory
  | .free directory name => .ok (tree.put (directory ++ [name]) (.file content))

/-- Adds something at a path where nothing is. -/
def add (tree : Tree) (path : Path) (node : Node) : Except Error Tree := do
  checkPath path
  let names := (steps path).filter (· ≠ [])
  match names.getLast? with
  | none => .error .alreadyExists
  | some last =>
    match ← lookUpFrom tree (.find true) maxLinks (tree.start path) (names.dropLast ++ [[]]) with
    | .free _ _ => .error .notFound
    | .found directory _ =>
      if last = Path.dot || last = Path.dotDot then .error .alreadyExists
      else if maxNameLength < (FileName.bytes last).length then .error .nameTooLong
      else if (tree.at? (directory ++ [last])).isSome then .error .alreadyExists
      else .ok (tree.put (directory ++ [last]) node)

/-- Makes a directory in one that exists. -/
def createDirectory (tree : Tree) (path : Path) : Except Error Tree :=
  tree.add path .directory

/-- Makes a directory whose parent exists, unless it exists itself. -/
def ensureDirectory (tree : Tree) (path : Path) : Except Error Unit × Tree :=
  match tree.createDirectory path with
  | .ok tree => (.ok (), tree)
  | .error error => (if tree.holdsDirectory path then .ok () else .error error, tree)

/-- Makes a directory and what is missing above it, `count` directories at most. -/
def createDirectoriesWithin : (count : Nat) → Tree → Path → Except Error Unit × Tree
  | 0, tree, path => tree.ensureDirectory path
  | count + 1, tree, path =>
    match tree.createDirectory path with
    | .ok tree => (.ok (), tree)
    | .error .notFound =>
      match path.parent? with
      | none => (.error .notFound, tree)
      | some parent =>
        if parent.isEmpty then tree.ensureDirectory path
        else
          match createDirectoriesWithin count tree parent with
          | (.error error, tree) => (.error error, tree)
          | (.ok (), tree) => tree.ensureDirectory path
    | .error _ => tree.ensureDirectory path

/-- Makes a directory and what is missing above it. Nothing needs to be made for the empty path. -/
def createDirectories (tree : Tree) (path : Path) : Except Error Unit × Tree :=
  if path.isEmpty then (.ok (), tree)
  else createDirectoriesWithin path.components.length tree path

end PolicyPages.Files.Tree
