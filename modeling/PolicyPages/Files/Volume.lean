import PolicyPages.Files.Access

/-!
# Volumes

What carries out the changes to a tree. The operations of `Files.Access` depend on the tree alone. A volume
may refuse more than they do, and it may give up halfway: to write a file is to open it, which makes or
empties it, and then to put its text there, for which there may be no room.
-/

namespace PolicyPages.Files

/-- How directories are made and a file is written. A tree is left behind also by what fails. -/
structure Volume where
  createDirectories : Tree → Path → Except Error Unit × Tree
  write : Tree → Path → Content → Except Error Unit × Tree

/-- How many bytes the files of a tree have. -/
def Tree.size (tree : Tree) : Nat :=
  tree.entries.foldl
    (fun size entry =>
      match entry.2 with
      | .file content => size + content.bytes.length
      | _ => size)
    0

namespace Volume

/-- A volume that refuses only what the tree does not allow. -/
def faultless : Volume where
  createDirectories := Tree.createDirectories
  write tree path content :=
    match tree.write path content with
    | .ok after => (.ok (), after)
    | .error error => (.error error, tree)

/-- A volume with a device at a place, which takes what is written to it and keeps nothing of it. -/
def withSink (device : Place) : Volume where
  createDirectories := Tree.createDirectories
  write tree path content :=
    match tree.lookUp .write path with
    | .ok (.found place _) =>
      if place = device then (.ok (), tree) else faultless.write tree path content
    | _ => faultless.write tree path content

/-- A volume with room for a number of bytes in all its files. Of a content that does not fit, the bytes
are written for which there is room. -/
def ofCapacity (capacity : Nat) : Volume where
  createDirectories := Tree.createDirectories
  write tree path content :=
    match tree.write path content with
    | .error error => (.error error, tree)
    | .ok after =>
      if after.size ≤ capacity then (.ok (), after)
      else
        let others := after.size - content.bytes.length
        match tree.write path (.ofBytes (content.bytes.take (capacity - others))) with
        | .ok cut => (.error .noSpace, cut)
        | .error _ => (.error .noSpace, tree)

end Volume

end PolicyPages.Files
