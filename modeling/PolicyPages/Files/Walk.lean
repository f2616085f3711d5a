import PolicyPages.Files.Lookup

/-!
# Walks through directories

A walk visits everything at and below a root: a directory before what it holds, and what it holds in
the order of the bytes of the names. Links are followed. A walk stops at the first thing that cannot
be reached, and at a link that leads back to a directory it lies in.

No directory is entered by a link twice on one way down, and between two links the way leads deeper
into the tree; so no way is longer than the square of the number of entries.
-/

namespace PolicyPages.Files

/-- Something that is visited: its path, the names from the root down to it, and whether it is a
file. -/
structure Visit where
  path : Path
  names : List FileName
  isFile : Bool
deriving DecidableEq

/-- What a walk has visited, and why it stopped, if it did. -/
structure Walk where
  visits : List Visit
  stop : Option WalkError
deriving DecidableEq

namespace Walk

/-- A walk that has visited nothing. -/
def nothing : Walk := ⟨[], none⟩

/-- A walk that stops at once. -/
def stopped (error : WalkError) : Walk := ⟨[], some error⟩

/-- A walk that goes on with another one, unless it has stopped. -/
def andThen (walk : Walk) (next : Unit → Walk) : Walk :=
  match walk.stop with
  | some _ => walk
  | none =>
    let rest := next ()
    ⟨walk.visits ++ rest.visits, rest.stop⟩

end Walk

/-- A directory on the way down, with the path by which it was entered. -/
structure Ancestor where
  place : Place
  path : Path

/-- What a path leads to after a link at its end is followed. A link to a directory that it lies in
is refused; the innermost such directory is named. -/
def entered (tree : Tree) (ancestors : List Ancestor) (path : Path) :
    Except WalkError (Place × Node) :=
  match tree.find false path with
  | .error error => .error (.access path error)
  | .ok (_, .link _) =>
    match tree.find true path with
    | .error error => .error (.access path error)
    | .ok (place, .directory) =>
      match ancestors.find? (·.place = place) with
      | some ancestor => .error (.loop path ancestor.path)
      | none => .ok (place, .directory)
    | .ok found => .ok found
  | .ok found => .ok found

/-- Walks through what is at a path and below it, `depth` directories deep at most. A file in a
directory is known from the list of what the directory holds: no path is followed to it. -/
def walkFrom (tree : Tree) : (depth : Nat) → (ancestors : List Ancestor) → Path →
    (names : List FileName) → Walk
  | depth, ancestors, path, names =>
    match entered tree ancestors path with
    | .error error => .stopped error
    | .ok (place, .directory) =>
      let here : Walk := ⟨[⟨path, names, false⟩], none⟩
      match depth with
      | 0 => here
      | depth + 1 =>
        (tree.children place).foldl
          (fun walk name => walk.andThen fun _ =>
            match tree.at? (place ++ [name]) with
            | some (.file _) => ⟨[⟨path.join ⟨name⟩, names ++ [name], true⟩], none⟩
            | _ =>
              walkFrom tree depth (⟨place, path⟩ :: ancestors) (path.join ⟨name⟩) (names ++ [name]))
          here
    | .ok (_, .file _) => ⟨[⟨path, names, true⟩], none⟩
    | .ok (_, .link _) => .nothing

/-- More directories than any way down from a root has. -/
def Tree.wayBound (tree : Tree) : Nat :=
  (tree.entries.length + 2) * (tree.entries.length + 2)

/-- Walks through what is at a root and below it. -/
def Tree.walk (tree : Tree) (root : Path) : Walk :=
  walkFrom tree tree.wayBound [] root []

end PolicyPages.Files
