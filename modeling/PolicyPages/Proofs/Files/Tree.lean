import Mathlib.Data.List.Basic
import PolicyPages.Files.Tree

/-!
# Trees that grow

What is at a place after something is put there (`at?_put`), and two relations between trees that
disregard the contents of files: one tree *grows* into another that still has all that it has, and two
trees have the *same shape* if each has what the other has.
-/

namespace PolicyPages.Files

/-- What something in a tree is, apart from the content of a file. -/
inductive Kind where
  | file
  | directory
  | link (target : Path)
deriving DecidableEq

/-- What something is. -/
def Node.kind : Node → Kind
  | .file _ => .file
  | .directory => .directory
  | .link target => .link target

@[simp] theorem Node.kind_file (content : Content) : (Node.file content).kind = .file := rfl
@[simp] theorem Node.kind_directory : Node.directory.kind = .directory := rfl
@[simp] theorem Node.kind_link (target : Path) : (Node.link target).kind = .link target := rfl

theorem Node.kind_eq_file_iff {node : Node} : node.kind = .file ↔ ∃ content, node = .file content := by
  cases node <;> simp

theorem Node.kind_eq_directory_iff {node : Node} : node.kind = .directory ↔ node = .directory := by
  cases node <;> simp

theorem Node.kind_eq_link_iff {node : Node} {target : Path} :
    node.kind = .link target ↔ node = .link target := by
  cases node <;> simp

namespace Tree

/-- What is at a place, apart from the content of a file. -/
def kind? (tree : Tree) (place : Place) : Option Kind :=
  (tree.at? place).map Node.kind

section

variable {tree : Tree} {place other : Place} {node : Node} {target : Path}

theorem kind?_of_at? (h : tree.at? place = some node) : tree.kind? place = some node.kind := by
  rw [kind?, h]
  rfl

theorem kind?_eq_none_iff : tree.kind? place = none ↔ tree.at? place = none :=
  Option.map_eq_none_iff

theorem kind?_eq_directory_iff :
    tree.kind? place = some .directory ↔ tree.at? place = some .directory := by
  simp [kind?, Node.kind_eq_directory_iff]

theorem kind?_eq_link_iff :
    tree.kind? place = some (.link target) ↔ tree.at? place = some (.link target) := by
  simp [kind?, Node.kind_eq_link_iff]

theorem isDirectory_iff : tree.isDirectory place = true ↔ tree.at? place = some .directory :=
  decide_eq_true_iff

theorem isSome_at?_of_isDirectory (directory : tree.isDirectory place = true) :
    (tree.at? place).isSome := by
  rw [isDirectory_iff.1 directory]
  rfl

theorem isDirectory_iff_kind? :
    tree.isDirectory place = true ↔ tree.kind? place = some .directory :=
  isDirectory_iff.trans kind?_eq_directory_iff.symm

@[simp] theorem workingDirectory_put :
    (tree.put place node).workingDirectory = tree.workingDirectory := by
  unfold put
  split <;> rfl

theorem lookup_replace (entries : List (Place × Node)) :
    (entries.map fun entry => if entry.1 = place then (place, node) else entry).lookup other =
      if other = place then (entries.lookup place).map fun _ => node else entries.lookup other := by
  induction entries with
  | nil => simp
  | cons entry rest ih =>
    obtain ⟨key, value⟩ := entry
    rw [List.map_cons, List.lookup_cons]
    by_cases same : key = place
    · subst same
      rw [if_pos rfl, List.lookup_cons, ih]
      by_cases here : other = key
      · simp [here]
      · simp only [beq_false_of_ne here, if_neg here, List.lookup_cons]
    · rw [if_neg same, List.lookup_cons, List.lookup_cons, beq_false_of_ne (Ne.symm same), ih]
      by_cases here : other = place
      · rw [here, beq_false_of_ne (Ne.symm same)]
      · rw [if_neg here, if_neg here]

/-- What is put at a place is there, and the rest stays as it is. -/
theorem at?_put (below : place ≠ []) :
    (tree.put place node).at? other = if other = place then some node else tree.at? other := by
  unfold at?
  by_cases root : other = []
  · subst root
    simp [below.symm]
  · rw [if_neg root, if_neg root]
    unfold put
    split
    · rename_i present
      show List.lookup other (List.map _ tree.entries) = _
      rw [lookup_replace]
      split
      · rw [Option.map_eq_some_iff]
        exact (Option.isSome_iff_exists.1 present).imp fun _ found => ⟨found, rfl⟩
      · rfl
    · rename_i absent
      rw [List.lookup_append]
      by_cases here : other = place
      · subst here
        rw [Bool.not_eq_true, Option.isSome_eq_false_iff, Option.isNone_iff_eq_none] at absent
        simp [absent]
      · have nothing : List.lookup other [(place, node)] = none := by
          rw [List.lookup_cons, beq_false_of_ne here, List.lookup_nil]
        rw [nothing, Option.or_none, if_neg here]

@[simp] theorem at?_root : tree.at? [] = some .directory :=
  if_pos rfl

theorem at?_put_self (below : place ≠ []) : (tree.put place node).at? place = some node := by
  rw [at?_put below, if_pos rfl]

theorem at?_put_of_ne (below : place ≠ []) (apart : other ≠ place) :
    (tree.put place node).at? other = tree.at? other := by
  rw [at?_put below, if_neg apart]

end

/-- Everything in the tree lies in a directory. -/
def Closed (tree : Tree) : Prop :=
  ∀ place, (tree.at? place).isSome → tree.isDirectory place.dropLast = true

/-- Nothing lies below a place where nothing is. -/
theorem Closed.at?_below {tree : Tree} (closed : tree.Closed) {place : Place}
    (free : tree.at? place = none) (name : FileName) : tree.at? (place ++ [name]) = none := by
  by_contra found
  have directory := closed _ (Option.isSome_iff_ne_none.2 found)
  rw [List.dropLast_concat, isDirectory_iff, free] at directory
  contradiction

/-- What is at a place below the root is an entry. -/
theorem mem_entries_of_at? {tree : Tree} {place : Place} {node : Node} (below : place ≠ [])
    (there : tree.at? place = some node) : (place, node) ∈ tree.entries := by
  rw [at?, if_neg below] at there
  obtain ⟨before, after, entries, -⟩ := List.lookup_eq_some_iff.1 there
  simp [entries]

/-- A tree whose entries lie in directories is closed. -/
theorem closed_of_entries {tree : Tree}
    (inside : ∀ entry ∈ tree.entries, tree.isDirectory entry.1.dropLast = true) :
    tree.Closed := by
  intro place found
  by_cases root : place = []
  · subst root
    exact isDirectory_iff.2 at?_root
  · obtain ⟨node, there⟩ := Option.isSome_iff_exists.1 found
    exact inside _ (mem_entries_of_at? root there)

/-- The second tree still has all that the first one has; only the contents of files may differ. -/
structure Grows (tree grown : Tree) : Prop where
  workingDirectory : grown.workingDirectory = tree.workingDirectory
  kind? : ∀ place kind, tree.kind? place = some kind → grown.kind? place = some kind

namespace Grows

variable {tree grown last : Tree}

theorem refl (tree : Tree) : tree.Grows tree :=
  ⟨rfl, fun _ _ found => found⟩

theorem trans (first : tree.Grows grown) (second : grown.Grows last) : tree.Grows last where
  workingDirectory := second.workingDirectory.trans first.workingDirectory
  kind? place kind found := second.kind? place kind (first.kind? place kind found)

theorem at? (grows : tree.Grows grown) {place : Place} {node : Node}
    (there : tree.at? place = some node) :
    ∃ now, grown.at? place = some now ∧ now.kind = node.kind :=
  Option.map_eq_some_iff.1 (grows.kind? place node.kind (kind?_of_at? there))

theorem start (grows : tree.Grows grown) (path : Path) : grown.start path = tree.start path := by
  rw [Tree.start, Tree.start, grows.workingDirectory]

theorem isDirectory (grows : tree.Grows grown) {place : Place}
    (directory : tree.isDirectory place = true) : grown.isDirectory place = true :=
  isDirectory_iff_kind?.2 (grows.kind? _ _ (isDirectory_iff_kind?.1 directory))

end Grows

/-- Two trees that differ in the contents of files only. -/
structure SameShape (tree other : Tree) : Prop where
  workingDirectory : other.workingDirectory = tree.workingDirectory
  kind? : ∀ place, other.kind? place = tree.kind? place

namespace SameShape

variable {tree other last : Tree}

theorem refl (tree : Tree) : tree.SameShape tree :=
  ⟨rfl, fun _ => rfl⟩

theorem symm (same : tree.SameShape other) : other.SameShape tree :=
  ⟨same.workingDirectory.symm, fun place => (same.kind? place).symm⟩

theorem trans (first : tree.SameShape other) (second : other.SameShape last) :
    tree.SameShape last where
  workingDirectory := second.workingDirectory.trans first.workingDirectory
  kind? place := (second.kind? place).trans (first.kind? place)

theorem grows (same : tree.SameShape other) : tree.Grows other :=
  ⟨same.workingDirectory, fun place _ found => (same.kind? place).trans found⟩

theorem isDirectory (same : tree.SameShape other) (place : Place) :
    other.isDirectory place = tree.isDirectory place := by
  rw [Bool.eq_iff_iff, isDirectory_iff_kind?, isDirectory_iff_kind?, same.kind?]

end SameShape

section

variable {tree : Tree} {directory : Place} {name : FileName} {node : Node}

/-- What is put where nothing is adds to the tree. -/
theorem grows_put (free : tree.at? (directory ++ [name]) = none) :
    tree.Grows (tree.put (directory ++ [name]) node) := by
  refine ⟨workingDirectory_put, fun place kind found => ?_⟩
  have apart : place ≠ directory ++ [name] := by
    rintro rfl
    rw [kind?_eq_none_iff.2 free] at found
    contradiction
  rw [Tree.kind?, at?_put_of_ne (by simp) apart]
  exact found

theorem Closed.put (closed : tree.Closed) (inDirectory : tree.isDirectory directory = true)
    (free : tree.at? (directory ++ [name]) = none) :
    (tree.put (directory ++ [name]) node).Closed := by
  intro place found
  refine (grows_put free).isDirectory ?_
  by_cases here : place = directory ++ [name]
  · rw [here, List.dropLast_concat]
    exact inDirectory
  · rw [at?_put_of_ne (by simp) here] at found
    exact closed place found

/-- A file that takes the place of a file keeps the shape of the tree. -/
theorem sameShape_put_file {place : Place} {content : Content}
    (file : tree.kind? place = some .file) :
    tree.SameShape (tree.put place (.file content)) := by
  have below : place ≠ [] := by
    rintro rfl
    simp [Tree.kind?] at file
  refine ⟨workingDirectory_put, fun other => ?_⟩
  rw [Tree.kind?, at?_put below]
  split
  · rename_i same
    rw [same, file]
    rfl
  · rfl

theorem SameShape.put {other : Tree} (same : tree.SameShape other) {place : Place}
    (below : place ≠ []) : (tree.put place node).SameShape (other.put place node) := by
  refine ⟨by simpa using same.workingDirectory, fun there => ?_⟩
  have kinds := same.kind? there
  unfold Tree.kind? at kinds ⊢
  rw [at?_put below, at?_put below]
  split
  · rfl
  · exact kinds

theorem SameShape.closed {other : Tree} (same : tree.SameShape other) (closed : tree.Closed) :
    other.Closed := by
  intro place found
  rw [same.isDirectory]
  refine closed place ?_
  have kinds := same.kind? place
  cases nothing : tree.at? place with
  | some node => rfl
  | none =>
    rw [kind?_eq_none_iff.2 nothing, kind?_eq_none_iff] at kinds
    simp [kinds] at found

end

end Tree

end PolicyPages.Files
