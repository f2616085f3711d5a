import PolicyPages.CommandLine.Program

/-!
# The executable

The part of the disk that a run may look at is read into a tree, the program runs on the tree, and what
it has made or changed there is made on the disk. All that is decided is decided by the program.
-/

namespace PolicyPages.Disk

open Files (Node Place Tree)

/-- What has been read: a tree, and the directories of which all is read that lies below. -/
structure Snapshot where
  tree : Tree
  walked : List Place

/-- The names of an absolute path. -/
def namesOf (path : Path) : Place :=
  path.segments.filter (· ≠ [])

/-- The absolute path of a place, as the disk knows it. -/
def textOf (place : Place) : String :=
  "/" ++ "/".intercalate (place.map fun name => Path.display ⟨name⟩)

/-- A path to which nothing on a disk leads, since no name holds the character NUL. -/
def nowhere : Path := .ofText "/\x00"

/-- What a link leads to in the end, as an absolute path. -/
def linkTarget (place : Place) : IO Path := do
  match ← (IO.FS.realPath (textOf place)).toBaseIO with
  | .ok target => return .ofText target.toString
  | .error (.noFileOrDirectory ..) => return nowhere
  | .error _ => return .ofText (textOf place)

/-- What is at a place of the disk. -/
def nodeAt? (place : Place) : IO (Option Node) := do
  let text : String := textOf place
  let path := (← IO.currentDir) / text
  match ← path.symlinkMetadata.toBaseIO with
  | .error _ => return none
  | .ok found =>
    match found.type with
    | .dir => return some .directory
    | .symlink => return some (.link (← linkTarget place))
    | _ => return some (.file (.ofBytes (← IO.FS.readBinFile text).toList))

/-- Reads what names lead to from a place, and all on the way. The result is where they lead. -/
partial def follow (snapshot : Snapshot) (place : Place) :
    List FileName → IO (Snapshot × Option Place)
  | [] => return (snapshot, some place)
  | name :: rest => do
    if name = Path.dot then follow snapshot place rest
    else if name = Path.dotDot then follow snapshot place.dropLast rest
    else
      let next := place ++ [name]
      let found ← match snapshot.tree.at? next with
        | some node => pure (some node)
        | none => nodeAt? next
      match found with
      | none => return (snapshot, none)
      | some node =>
        let kept := { snapshot with tree := snapshot.tree.put next node }
        match node with
        | .link target =>
          if target = nowhere || namesOf target = next then return (kept, none)
          else follow kept [] (namesOf target ++ rest)
        | _ => follow kept next rest

/-- The names in a directory of the disk. -/
def namesIn (place : Place) : IO (List FileName) := do
  let path := (← IO.currentDir) / textOf place
  match ← path.readDir.toBaseIO with
  | .ok entries => return entries.toList.map fun entry => (Path.ofText entry.fileName).units
  | .error _ => return []

/-- Reads what is in a directory; the result also tells which directories that is. -/
def readDirectory (snapshot : Snapshot) (place : Place) : IO (Snapshot × List Place) := do
  let mut snapshot := snapshot
  let mut found := []
  for name in ← namesIn place do
    let (next, target) ← follow snapshot place [name]
    snapshot := next
    match target with
    | some target => if next.tree.isDirectory target then found := found ++ [target]
    | none => pure ()
  return (snapshot, found)

/-- Reads all that is below a directory, also through links. -/
partial def walk (snapshot : Snapshot) (place : Place) : IO Snapshot := do
  if snapshot.walked.contains place then return snapshot
  let (read, below) ← readDirectory { snapshot with walked := place :: snapshot.walked } place
  below.foldlM walk read

/-- Reads what a path leads to. -/
def readPath (snapshot : Snapshot) (path : Path) : IO (Snapshot × Option Place) :=
  follow snapshot (snapshot.tree.start path) (namesOf path)

/-- Reads a directory and, as `deep` tells, all below it or just what is in it. -/
def readBelow (deep : Bool) (snapshot : Snapshot) (path : Path) : IO Snapshot := do
  match ← readPath snapshot path with
  | (read, some place) =>
    if !read.tree.isDirectory place then return read
    else if deep then walk read place
    else return (← readDirectory read place).1
  | (read, none) => return read

/-- Reads what a run with these arguments may look at. -/
def read (arguments : CommandLine.Arguments) : IO Tree := do
  let here := namesOf (.ofText (← IO.currentDir).toString)
  let (start, _) ← follow ⟨.empty, []⟩ [] here
  let start := { start with tree := { start.tree with workingDirectory := here } }
  let files := (arguments.settings.getD Settings.defaultPath) :: arguments.annotations.toList
  let read ← files.foldlM (fun read file => return (← readPath read file).1) start
  let read ← arguments.roots.foldlM (readBelow true) read
  return (← (Site.directories arguments.out).foldlM (readBelow false) read).tree

/-- Makes on the disk what a run has made or changed. -/
def commit (before after : Tree) : IO Unit := do
  for (place, node) in after.entries do
    if before.at? place ≠ some node then
      match node with
      | .directory => IO.FS.createDir (textOf place)
      | .file (.text text) => IO.FS.writeFile (textOf place) text
      | _ => pure ()

end PolicyPages.Disk

open PolicyPages

/-- Runs the program on the words of the command line. -/
def main (words : List String) : IO UInt32 := do
  let files ← match CommandLine.Command.ofWords words with
    | .ok (.generate arguments) => Disk.read arguments
    | _ => pure .empty
  let names := CommandLine.filterVariable :: OverrideKey.all.map OverrideKey.name
  let values ← names.mapM fun name => return (name, ← IO.getEnv name)
  let outcome := CommandLine.run words (fun name => (values.lookup name).join) files
  Disk.commit files outcome.files
  for event in outcome.log do
    IO.eprintln event.line
  IO.eprint outcome.complaint
  IO.print outcome.output
  return UInt32.ofNat outcome.exitCode
