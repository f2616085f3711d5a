import PolicyPages.Proofs.Files.Access

/-!
# The files that paths denote

A path denotes a file if it leads there once all links are followed. It denotes one file at most
(`Denotes.unique`), and the same one in a tree that has grown (`Denotes.grows`). The path of a file that
has been written denotes the file, which holds what was written (`find_of_write`).
-/

namespace PolicyPages.Files.Tree

/-- The path leads to the file at the place. -/
def Denotes (tree : Tree) (path : Path) (place : Place) : Prop :=
  ∃ content, tree.find true path = .ok (place, .file content)

section

variable {tree grown after : Tree} {path : Path} {place other : Place} {content : Content}

theorem find_eq_ok_iff {followLast : Bool} {node : Node} :
    tree.find followLast path = .ok (place, node) ↔
      tree.lookUp (.find followLast) path = .ok (.found place node) := by
  unfold find
  rw [bind_eq_ok_iff]
  constructor
  · rintro ⟨target, found, same⟩
    cases target with
    | free directory name => contradiction
    | found there node =>
      obtain ⟨rfl, rfl⟩ := Prod.mk.inj (Except.ok.inj same)
      exact found
  · exact fun found => ⟨_, found, rfl⟩

theorem at?_of_find {followLast : Bool} {node : Node}
    (found : tree.find followLast path = .ok (place, node)) : tree.at? place = some node :=
  at?_of_lookUp_found (lookUp_eq_ok_iff.1 (find_eq_ok_iff.1 found)).2

theorem checkPath_of_find {followLast : Bool} {node : Node}
    (found : tree.find followLast path = .ok (place, node)) : checkPath path = .ok () :=
  (lookUp_eq_ok_iff.1 (find_eq_ok_iff.1 found)).1

theorem isDirectory_of_find {followLast : Bool}
    (found : tree.find followLast path = .ok (place, .directory)) : tree.isDirectory place = true :=
  isDirectory_iff.2 (at?_of_find found)

theorem isDirectory_of_find_file {followLast : Bool} {content : Content}
    (found : tree.find followLast path = .ok (place, .file content)) :
    tree.isDirectory place = false := by
  rw [isDirectory, at?_of_find found]
  rfl

theorem holdsDirectory_iff_find :
    tree.holdsDirectory path = true ↔ ∃ place, tree.find true path = .ok (place, .directory) := by
  unfold Tree.holdsDirectory
  rcases tree.find true path with error | ⟨place, _ | _ | _⟩ <;> simp

theorem holdsFile_iff_find :
    tree.holdsFile path = true ↔ ∃ place content, tree.find true path = .ok (place, .file content) := by
  unfold Tree.holdsFile
  rcases tree.find true path with error | ⟨place, _ | _ | _⟩ <;> simp

theorem denotes_iff :
    tree.Denotes path place ↔
      tree.LeadsTo (.find true) path place ∧ tree.kind? place = some .file := by
  constructor
  · rintro ⟨content, found⟩
    exact ⟨⟨_, find_eq_ok_iff.1 found, rfl⟩, kind?_of_at? (at?_of_find found)⟩
  · rintro ⟨leadsTo, file⟩
    rcases leadsTo.lookUp_eq with ⟨node, there, found⟩ | ⟨_, _, rfl, -, free, -⟩
    · have isFile : node.kind = .file := by simpa [kind?_of_at? there] using file
      obtain ⟨content, rfl⟩ := Node.kind_eq_file_iff.1 isFile
      exact ⟨content, find_eq_ok_iff.2 found⟩
    · rw [kind?_eq_none_iff.2 free] at file
      contradiction

namespace Denotes

theorem unique (h : tree.Denotes path place) (h' : tree.Denotes path other) : place = other := by
  obtain ⟨_, found⟩ := h
  obtain ⟨_, found'⟩ := h'
  exact (Prod.mk.inj (Except.ok.inj (found.symm.trans found'))).1

/-- A path finds whatever its file holds. -/
theorem find_eq (h : tree.Denotes path place) (there : tree.at? place = some (.file content)) :
    tree.find true path = .ok (place, .file content) := by
  obtain ⟨found, leads⟩ := h
  rw [leads, Option.some.inj ((at?_of_find leads).symm.trans there)]

/-- A path still denotes its file in a tree that has grown. -/
theorem grows (h : tree.Denotes path place) (grows : tree.Grows grown) :
    grown.Denotes path place := by
  obtain ⟨leadsTo, file⟩ := denotes_iff.1 h
  have now : grown.kind? place = some .file := grows.kind? place .file file
  refine denotes_iff.2 ⟨leadsTo.grows grows fun none => ?_, now⟩
  rw [file] at none
  contradiction

/-- A path that denotes a file denotes no other one later. -/
theorem iff_of_grows (h : tree.Denotes path place) (grows : tree.Grows grown) :
    grown.Denotes path other ↔ tree.Denotes path other := by
  refine ⟨fun later => ?_, fun now => now.grows grows⟩
  rw [← (h.grows grows).unique later]
  exact h

end Denotes

/-- Writing to a path changes one place. The path denotes the file there, which holds what was
written. -/
theorem find_of_write (written : tree.write path content = .ok after) :
    ∃ place, place ≠ [] ∧ after = tree.put place (.file content) ∧
      after.find true path = .ok (place, .file content) := by
  obtain ⟨place, below, rfl, stays⟩ := leadsTo_of_write written
  obtain ⟨⟨target, found, same⟩, file⟩ := stays _ (.refl _)
  obtain ⟨checked, found⟩ := lookUp_eq_ok_iff.1 found
  have leadsTo : (tree.put place (.file content)).LeadsTo (.find true) path place :=
    ⟨target, lookUp_eq_ok_iff.2 ⟨checked, lookUp_find_of_write found⟩, same⟩
  have denotes := denotes_iff.2 ⟨leadsTo, file⟩
  exact ⟨place, below, rfl, denotes.find_eq (at?_put_self below)⟩

end

end PolicyPages.Files.Tree
