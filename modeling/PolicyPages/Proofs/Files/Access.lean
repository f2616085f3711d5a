import Mathlib.Data.List.Flatten
import PolicyPages.Files.Access
import PolicyPages.Proofs.Files.Arrival
import PolicyPages.Proofs.Sequencing

/-!
# Reading and writing files

What reading and writing do, in terms of the place that a path leads to. A file that could be
written can be written again once the tree has grown (`leadsTo_of_write`, `LeadsTo.write_eq`), and what
is at its place is read back (`read_of_leadsTo`, `read_of_write`).
-/

namespace PolicyPages.Files

open PolicyPages.Path (leads)

/-! ### Names of paths -/

theorem filter_steps (path : Path) : (steps path).filter (· ≠ []) = path.names := by
  rw [steps, List.filter_append, List.filter_filter]
  simp only [Bool.and_self]
  split <;> simp [Path.names]

theorem filter_leads_steps (path : Path) : (steps path).filter leads = path.way := by
  rw [steps, List.filter_append, ← Path.filter_leads_names]
  split <;> simp [Path.names, leads]

@[simp] theorem filter_leads_way (path : Path) : path.way.filter leads = path.way := by
  simp [Path.way]

/-- A part of a path that is not empty can be used if the path can. -/
theorem checkPath_of_sublist {path part : Path} (checked : checkPath path = .ok ())
    (nonempty : part.isEmpty = false) (sublist : part.units.Sublist path.units) :
    checkPath part = .ok () := by
  unfold checkPath at checked ⊢
  split_ifs at checked with nul empty long
  have bytes : (FileName.bytes part.units).length ≤ (FileName.bytes path.units).length :=
    (sublist.flatMap _).length_le
  rw [if_neg ?_, if_neg (by simp [nonempty]), if_neg (by omega)]
  intro mem
  exact nul (List.contains_iff_mem.2 (sublist.subset (List.contains_iff_mem.1 mem)))

namespace Tree

/-- Where a path begins, with all its names left. -/
def position (tree : Tree) (path : Path) : Position :=
  ⟨maxLinks, tree.start path, steps path⟩

/-- A path leads to a place, where something may be or not. -/
def LeadsTo (tree : Tree) (purpose : Purpose) (path : Path) (place : Place) : Prop :=
  ∃ target, tree.lookUp purpose path = .ok target ∧ target.place = place

section

variable {tree grown other after : Tree} {purpose : Purpose} {path : Path} {place : Place}
  {content : Content} {error : Error}

theorem lookUp_eq_ok_iff {target : Target} :
    tree.lookUp purpose path = .ok target ↔
      checkPath path = .ok () ∧ (tree.position path).lookUp tree purpose = .ok target := by
  unfold lookUp
  rw [bind_eq_ok_iff]
  exact ⟨fun ⟨_, checked, found⟩ => ⟨checked, found⟩, fun ⟨checked, found⟩ => ⟨_, checked, found⟩⟩

theorem lookUp_eq_error_iff :
    tree.lookUp purpose path = .error error ↔
      checkPath path = .error error ∨
        checkPath path = .ok () ∧ (tree.position path).lookUp tree purpose = .error error := by
  unfold lookUp
  rw [bind_eq_error_iff]
  exact or_congr_right ⟨fun ⟨_, checked, found⟩ => ⟨checked, found⟩,
    fun ⟨checked, found⟩ => ⟨_, checked, found⟩⟩

theorem Grows.position (grows : tree.Grows grown) (path : Path) :
    grown.position path = tree.position path := by
  rw [Tree.position, Tree.position, grows.start]

/-- A path still leads to its place in a tree that has grown. -/
theorem LeadsTo.grows (leadsTo : tree.LeadsTo purpose path place) (grows : tree.Grows grown)
    (noNewLink : NoNewLink tree grown place) : grown.LeadsTo purpose path place := by
  obtain ⟨target, found, rfl⟩ := leadsTo
  obtain ⟨checked, found⟩ := lookUp_eq_ok_iff.1 found
  obtain ⟨now, found, same⟩ := lookUp_of_grows grows found noNewLink
  rw [← grows.position] at found
  exact ⟨now, lookUp_eq_ok_iff.2 ⟨checked, found⟩, same⟩

theorem lookUp_eq_error_of_sameShape (same : tree.SameShape other)
    (h : tree.lookUp purpose path = .error error) : other.lookUp purpose path = .error error := by
  rw [lookUp_eq_error_iff] at h ⊢
  refine h.imp_right fun ⟨checked, failed⟩ => ⟨checked, ?_⟩
  rw [same.grows.position]
  exact lookUp_error_of_sameShape same failed

/-! ### Files -/

/-- What a path that leads to a place finds there. -/
theorem LeadsTo.lookUp_eq (leadsTo : tree.LeadsTo purpose path place) :
    (∃ node, tree.at? place = some node ∧
      tree.lookUp purpose path = .ok (.found place node)) ∨
    ∃ directory name, place = directory ++ [name] ∧ tree.isDirectory directory = true ∧
      tree.at? place = none ∧ tree.lookUp purpose path = .ok (.free directory name) := by
  obtain ⟨target, found, rfl⟩ := leadsTo
  obtain ⟨-, reached⟩ := lookUp_eq_ok_iff.1 found
  cases target with
  | found place node => exact .inl ⟨node, at?_of_lookUp_found reached, found⟩
  | free directory name =>
    obtain ⟨inDirectory, -, free⟩ := of_lookUp_free reached
    exact .inr ⟨directory, name, rfl, inDirectory, free, found⟩

/-- A file is written at the place that its path leads to, unless something else is there. -/
theorem write_eq_ok_iff :
    tree.write path content = .ok after ↔
      ∃ place, tree.LeadsTo .write path place ∧
        (tree.kind? place = none ∨ tree.kind? place = some .file) ∧
        after = tree.put place (.file content) := by
  unfold write
  rw [bind_eq_ok_iff]
  constructor
  · rintro ⟨target, found, written⟩
    obtain ⟨-, reached⟩ := lookUp_eq_ok_iff.1 found
    refine ⟨target.place, ⟨target, found, rfl⟩, ?_⟩
    cases target with
    | free directory name =>
      obtain ⟨-, -, free⟩ := of_lookUp_free reached
      exact ⟨.inl (kind?_eq_none_iff.2 free), (Except.ok.inj written).symm⟩
    | found place node =>
      cases node with
      | file old =>
        exact ⟨.inr (kind?_of_at? (at?_of_lookUp_found reached)), (Except.ok.inj written).symm⟩
      | directory => contradiction
      | link target => contradiction
  · rintro ⟨place, leadsTo, kind, rfl⟩
    rcases leadsTo.lookUp_eq with ⟨node, there, found⟩ | ⟨directory, name, rfl, -, -, found⟩
    · refine ⟨_, found, ?_⟩
      have isFile : node.kind = .file := by simpa [kind?_of_at? there] using kind
      obtain ⟨old, rfl⟩ := Node.kind_eq_file_iff.1 isFile
      rfl
    · exact ⟨_, found, rfl⟩

theorem ne_nil_of_kind? (kind : tree.kind? place = none ∨ tree.kind? place = some .file) :
    place ≠ [] := by
  rintro rfl
  simp [kind?] at kind

/-- Writing a file adds it, or keeps the shape of the tree. -/
theorem grows_of_write (written : tree.write path content = .ok after) : tree.Grows after := by
  obtain ⟨place, leadsTo, kind, rfl⟩ := write_eq_ok_iff.1 written
  rcases kind with free | file
  · rcases leadsTo.lookUp_eq with ⟨node, there, -⟩ | ⟨directory, name, rfl, -, free, -⟩
    · rw [kind?_eq_none_iff, there] at free
      contradiction
    · exact grows_put free
  · exact (sameShape_put_file file).grows

theorem closed_of_write (closed : tree.Closed) (written : tree.write path content = .ok after) :
    after.Closed := by
  obtain ⟨place, leadsTo, kind, rfl⟩ := write_eq_ok_iff.1 written
  rcases kind with free | file
  · rcases leadsTo.lookUp_eq with ⟨node, there, -⟩ | ⟨directory, name, rfl, inside, free, -⟩
    · rw [kind?_eq_none_iff, there] at free
      contradiction
    · exact closed.put inside free
  · exact (sameShape_put_file file).closed closed

/-- The path of a file that was written leads to one place in every tree that has grown since, and there
is a file. -/
theorem leadsTo_of_write (written : tree.write path content = .ok after) :
    ∃ place, place ≠ [] ∧ after = tree.put place (.file content) ∧
      ∀ grown, after.Grows grown →
        grown.LeadsTo .write path place ∧ grown.kind? place = some .file := by
  obtain ⟨place, leadsTo, kind, rfl⟩ := write_eq_ok_iff.1 written
  have below := ne_nil_of_kind? kind
  refine ⟨place, below, rfl, fun grown grows => ?_⟩
  have here : grown.kind? place = some .file :=
    grows.kind? place .file (kind?_of_at? (at?_put_self below))
  have noNewLink : NoNewLink tree grown place := fun _ target => by simp [here]
  exact ⟨leadsTo.grows ((grows_of_write written).trans grows) noNewLink, here⟩

/-- A file is written again where it is. -/
theorem LeadsTo.write_eq (leadsTo : tree.LeadsTo .write path place)
    (file : tree.kind? place = some .file) (content : Content) :
    tree.write path content = .ok (tree.put place (.file content)) :=
  write_eq_ok_iff.2 ⟨place, leadsTo, .inr file, rfl⟩

/-- Whether a file cannot be written, and why, does not depend on the contents of files. -/
theorem write_error_of_sameShape (same : tree.SameShape other) {text : Content}
    (failed : tree.write path content = .error error) : other.write path text = .error error := by
  unfold write at failed ⊢
  rw [bind_eq_error_iff] at failed ⊢
  rcases failed with failed | ⟨target, found, refused⟩
  · exact .inl (lookUp_eq_error_of_sameShape same failed)
  · cases target with
    | free directory name => contradiction
    | found place node =>
      have there := at?_of_lookUp_found (lookUp_eq_ok_iff.1 found).2
      have leadsTo : tree.LeadsTo .write path place := ⟨_, found, rfl⟩
      obtain ⟨now, thereNow, kinds⟩ := same.grows.at? there
      have noNewLink : NoNewLink tree other place := fun none => by
        rw [kind?_eq_none_iff, there] at none
        contradiction
      right
      rcases (leadsTo.grows same.grows noNewLink).lookUp_eq with
        ⟨found, thereFound, reached⟩ | ⟨_, _, rfl, -, free, -⟩
      · obtain rfl := Option.some.inj (thereNow.symm.trans thereFound)
        refine ⟨_, reached, ?_⟩
        cases node with
        | file old => contradiction
        | directory =>
          rw [Node.kind_eq_directory_iff.1 kinds]
          exact refused
        | link target =>
          rw [Node.kind_eq_link_iff.1 kinds]
          exact refused
      · rw [thereNow] at free
        contradiction

/-- What is at the place that a file is written to is read back. -/
theorem read_of_leadsTo {text : String} (leadsTo : tree.LeadsTo .write path place)
    (there : tree.at? place = some (.file (.text text))) : tree.read path = .ok text := by
  rcases leadsTo.lookUp_eq with ⟨node, same, found⟩ | ⟨_, _, rfl, -, free, -⟩
  · obtain rfl := Option.some.inj (there.symm.trans same)
    obtain ⟨checked, found⟩ := lookUp_eq_ok_iff.1 found
    have found := lookUp_eq_ok_iff.2 ⟨checked, lookUp_find_of_write found⟩
    simp only [read, find, found, bind, Except.bind]
  · rw [there] at free
    contradiction

theorem read_of_write {text : String} (written : tree.write path (.text text) = .ok after) :
    after.read path = .ok text := by
  obtain ⟨place, below, rfl, stays⟩ := leadsTo_of_write written
  exact read_of_leadsTo (stays _ (.refl _)).1 (at?_put_self below)

end

end Tree

end PolicyPages.Files
