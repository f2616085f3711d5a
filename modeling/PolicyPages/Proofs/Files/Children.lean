import PolicyPages.Proofs.Files.Below
import PolicyPages.Proofs.Files.Denotation

/-!
# What directories hold

A tree is *lawful* if a file system may have it. In such a tree a directory lists what it holds once
each, in ascending order of the bytes of the names (`mem_children_iff`, `pairwise_children`). Where a
path leads to a directory, the path with one more name is looked up from there, unless it is too long
(`exists_lookUp_join`).
-/

namespace PolicyPages.Files

open Text (Unit8)

/-- A name that a file system allows. -/
structure IsFileName (name : FileName) : Prop extends IsName name where
  noSeparator : Path.separator ∉ name
  noNul : Unit8.char '\x00' ∉ name

theorem isFileName_iff {name : FileName} :
    IsFileName name ↔
      (Path.leads name = true ∧ name ≠ Path.dotDot ∧ name.bytes.length ≤ maxNameLength) ∧
        Path.separator ∉ name ∧ Unit8.char '\x00' ∉ name :=
  ⟨fun h => ⟨⟨h.leads, h.down, h.short⟩, h.noSeparator, h.noNul⟩,
    fun ⟨⟨leads, down, short⟩, noSeparator, noNul⟩ => ⟨⟨leads, down, short⟩, noSeparator, noNul⟩⟩

instance (name : FileName) : Decidable (IsFileName name) :=
  decidable_of_iff _ isFileName_iff.symm

/-- What holds of all trees of a file system: everything lies in a directory, under a name that is
allowed and that nothing else there has, byte for byte. -/
structure Tree.Lawful (tree : Tree) : Prop where
  closed : tree.Closed
  names : ∀ entry ∈ tree.entries, ∀ name ∈ entry.1, IsFileName name
  distinct : (tree.entries.map fun entry => entry.1.map FileName.bytes).Nodup
  workingDirectory : tree.isDirectory tree.workingDirectory = true

/-- Whether a path is not too long to be used. -/
def Fits (path : Path) : Prop :=
  (FileName.bytes path.units).length ≤ maxPathLength

instance (path : Path) : Decidable (Fits path) :=
  inferInstanceAs (Decidable (_ ≤ _))

theorem checkPath_eq_ok_iff {path : Path} :
    checkPath path = .ok () ↔
      Unit8.char '\x00' ∉ path.units ∧ path.isEmpty = false ∧ Fits path := by
  unfold checkPath Fits
  split_ifs with nul empty long
  · simp [List.contains_iff_mem.1 nul]
  · simp [empty]
  · simp [Nat.not_le.2 long]
  · have noNul := mt List.contains_iff_mem.2 nul
    simp [noNul, empty, Nat.not_lt.1 long]

namespace Tree

theorem fits_of_find {tree : Tree} {path : Path} {place : Place} {node : Node}
    (found : tree.find true path = .ok (place, node)) : Fits path :=
  (checkPath_eq_ok_iff.1 (checkPath_of_find found)).2.2

section

variable {tree : Tree} {directory place : Place} {name : FileName}

/-! ### Lists of names -/

theorem childName?_eq_some_iff :
    childName? directory place = some name ↔ place = directory ++ [name] := by
  unfold childName?
  cases ends : place.getLast? with
  | none =>
    obtain rfl := List.getLast?_eq_none_iff.1 ends
    simp
  | some last =>
    obtain ⟨front, rfl⟩ := List.getLast?_eq_some_iff.1 ends
    simp

theorem isSome_at?_iff (below : place ≠ []) :
    (tree.at? place).isSome ↔ place ∈ tree.entries.map Prod.fst := by
  rw [at?, if_neg below, ← not_iff_not, Option.not_isSome_iff_eq_none, List.lookup_eq_none_iff]
  simp only [bne_iff_ne, List.mem_map, not_exists, not_and]
  exact ⟨fun other entry mem same => other entry mem same.symm,
    fun other entry mem same => other entry mem same.symm⟩

/-- A directory lists just the names under which something lies in it. -/
theorem mem_children_iff :
    name ∈ tree.children directory ↔ (tree.at? (directory ++ [name])).isSome := by
  rw [isSome_at?_iff (by simp), children, List.mem_mergeSort, List.mem_filterMap, List.mem_map]
  simp only [childName?_eq_some_iff]

/-- Where the tree has the names of a directory in order, they are listed as they are. -/
theorem children_of_pairwise {names : List FileName}
    (found : (tree.entries.filterMap fun entry => childName? directory entry.1) = names)
    (ordered : names.Pairwise fun a b => inOrder a b = true) : tree.children directory = names := by
  rw [children, found, List.mergeSort_of_pairwise ordered]

theorem inOrder_iff {a b : FileName} : inOrder a b = true ↔ a.bytes ≤ b.bytes :=
  decide_eq_true_iff

/-- A directory lists names in ascending order, and none twice. -/
theorem Lawful.pairwise_children (lawful : tree.Lawful) (directory : Place) :
    (tree.children directory).Pairwise fun a b => a.bytes < b.bytes := by
  have ordered : (tree.children directory).Pairwise fun a b => a.bytes ≤ b.bytes := by
    refine (List.pairwise_mergeSort ?_ ?_ _).imp inOrder_iff.1
    · intro a b c ab bc
      exact inOrder_iff.2 (List.le_trans (inOrder_iff.1 ab) (inOrder_iff.1 bc))
    · intro a b
      rw [Bool.or_eq_true, inOrder_iff, inOrder_iff]
      exact List.le_total _ _
  have apart : (tree.children directory).Pairwise fun a b => a.bytes ≠ b.bytes := by
    refine ((List.mergeSort_perm _ _).pairwise_iff fun differ => differ.symm).2 ?_
    refine List.pairwise_filterMap.2 ((List.pairwise_map.1 lawful.distinct).imp ?_)
    intro entry other differ name isName second isSecond same
    refine differ ?_
    rw [childName?_eq_some_iff.1 isName, childName?_eq_some_iff.1 isSecond]
    simp [same]
  exact (ordered.and apart).imp fun ⟨le, ne⟩ => Std.lt_of_le_of_ne le ne

/-- Whatever lies in a tree has a name that is allowed. -/
theorem Lawful.isFileName (lawful : tree.Lawful) (there : (tree.at? place).isSome)
    (mem : name ∈ place) : IsFileName name := by
  obtain ⟨entry, isEntry, rfl⟩ :=
    List.mem_map.1 ((isSome_at?_iff (List.ne_nil_of_mem mem)).1 there)
  exact lawful.names entry isEntry name mem

end

end Tree

/-! ### One more name -/

section

variable {tree : Tree} {path : Path} {place : Place} {name : FileName}

theorem IsFileName.ne_nil (isFileName : IsFileName name) : name ≠ [] := by
  rintro rfl
  exact absurd isFileName.leads (by decide)

theorem IsFileName.segments (isFileName : IsFileName name) : (Path.mk name).segments = [name] :=
  Path.segments_of_units (List.cons_ne_nil _ _) (by simpa using isFileName.noSeparator) (by simp)

theorem IsFileName.isAbsolute (isFileName : IsFileName name) :
    (Path.mk name).isAbsolute = false := by
  refine decide_eq_false fun head => isFileName.noSeparator ?_
  exact List.mem_of_mem_head? head

theorem IsFileName.getLast?_join (isFileName : IsFileName name) (path : Path) :
    (path.join ⟨name⟩).units.getLast? ≠ some Path.separator := by
  rw [Path.getLast?_join isFileName.ne_nil]
  exact fun last => isFileName.noSeparator (List.mem_of_getLast? last)

/-- A path with one more name can be used unless it is too long. -/
theorem checkPath_join (checked : checkPath path = .ok ()) (isFileName : IsFileName name) :
    checkPath (path.join ⟨name⟩) =
      if Fits (path.join ⟨name⟩) then .ok () else .error .nameTooLong := by
  have units : (path.join ⟨name⟩).units = Path.opened path.units ++ name :=
    Path.units_join isFileName.isAbsolute
  have noNul : Unit8.char '\x00' ∉ (path.join ⟨name⟩).units := by
    rw [units, List.mem_append, not_or]
    refine ⟨fun mem => (checkPath_eq_ok_iff.1 checked).1 ?_, isFileName.noNul⟩
    unfold Path.opened at mem
    split at mem
    · exact mem
    · simpa [Path.separator] using mem
  have nonempty : (path.join ⟨name⟩).isEmpty = false := by
    refine List.isEmpty_eq_false_iff.2 ?_
    rw [units]
    exact List.append_ne_nil_of_right_ne_nil _ isFileName.ne_nil
  unfold checkPath
  rw [if_neg (by simpa using noNul), nonempty, if_neg (by simp)]
  by_cases fits : Fits (path.join ⟨name⟩)
  · rw [if_neg (Nat.not_lt.2 fits), if_pos fits]
  · rw [if_pos (Nat.lt_of_not_le fits), if_neg fits]

/-- A path with one more name has this name followed last. -/
theorem Tree.lookUp_join (checked : checkPath path = .ok ()) (isFileName : IsFileName name) :
    tree.lookUp (.find true) (path.join ⟨name⟩) =
      if Fits (path.join ⟨name⟩) then
        Position.lookUp ⟨maxLinks, tree.start path, path.names ++ [name]⟩ tree (.find true)
      else .error .nameTooLong := by
  have relative := isFileName.isAbsolute
  have single : (Path.mk name).names = [name] := by
    simp [Path.names, isFileName.segments, isFileName.ne_nil]
  have names : steps (path.join ⟨name⟩) = path.names ++ [name] := by
    rw [steps_eq_names (isFileName.getLast?_join path), Path.names_join relative, single]
  have start : tree.start (path.join ⟨name⟩) = tree.start path := by
    rw [start, start, Path.isAbsolute_join relative]
  unfold lookUp
  rw [checkPath_join checked isFileName, names, start]
  split <;> rfl

/-- A path with one more name is looked up from the directory that the path leads to. -/
theorem Tree.exists_lookUp_join (found : tree.find true path = .ok (place, .directory)) :
    ∃ links, ∀ name, IsFileName name →
      tree.lookUp (.find true) (path.join ⟨name⟩) =
        if Fits (path.join ⟨name⟩) then Position.lookUp ⟨links, place, [name]⟩ tree (.find true)
        else .error .nameTooLong := by
  obtain ⟨checked, links, arrives⟩ := find_directory_iff.1 found
  have arrivesNames : Arrives tree ⟨maxLinks, tree.start path, path.names⟩ links place :=
    arrives.congr (by rw [Path.filter_leads_names, filter_leads_way])
  refine ⟨links, fun name isFileName => ?_⟩
  rw [lookUp_join checked isFileName, arrivesNames.lookUp_append (.inl rfl)]

/-- A name of something that is no link leads there. -/
theorem lookUp_name {links : Nat} {node : Node} (directory : tree.isDirectory place = true)
    (isName : IsName name) (there : tree.at? (place ++ [name]) = some node)
    (noLink : ∀ target, node ≠ .link target) :
    Position.lookUp ⟨links, place, [name]⟩ tree (.find true) =
      .ok (.found (place ++ [name]) node) := by
  have move : Move tree (.find true) ⟨links, place, [name]⟩ ⟨links, place ++ [name], []⟩ :=
    .down directory isName nofun (Tree.kind?_of_at? there) fun target isLink =>
      noLink target (Node.kind_eq_link_iff.1 isLink)
  rw [move.lookUp_eq, (Ends.found there).lookUp_eq]

/-- A path with one more name leads to what has this name, unless it is too long. -/
theorem Tree.find_join {node : Node} (found : tree.find true path = .ok (place, .directory))
    (isFileName : IsFileName name) (there : tree.at? (place ++ [name]) = some node)
    (noLink : ∀ target, node ≠ .link target) :
    tree.find true (path.join ⟨name⟩) =
      if Fits (path.join ⟨name⟩) then .ok (place ++ [name], node) else .error .nameTooLong := by
  obtain ⟨links, behind⟩ := exists_lookUp_join found
  unfold find
  rw [behind name isFileName,
    lookUp_name (isDirectory_of_find found) isFileName.toIsName there noLink]
  split <;> rfl

/-! ### Below a file -/

theorem eq_of_moves_nil {links left : Nat} {goal : Place}
    (moves : Moves tree (.find true) ⟨links, place, []⟩ ⟨left, goal, []⟩) : goal = place := by
  rcases Relation.ReflTransGen.cases_head moves with same | ⟨next, move, -⟩
  · exact (congrArg Position.place same).symm
  · cases move

/-- The last name on the way to something that is no directory is a name of its own. -/
theorem isName_of_moves (closed : tree.Closed) {links left : Nat} {goal : Place}
    {front : List FileName}
    (moves : Moves tree (.find true) ⟨links, place, front ++ [name]⟩ ⟨left, goal, []⟩)
    (other : tree.isDirectory goal = false) : IsName name := by
  obtain ⟨between, middle, -, last⟩ := moves.cut rfl
  rcases Relation.ReflTransGen.cases_head last with same | ⟨next, move, rest⟩
  · exact absurd (congrArg Position.names same) (List.cons_ne_nil _ _)
  · cases move with
    | stay directory still =>
      rw [eq_of_moves_nil rest, directory] at other
      contradiction
    | up directory =>
      have above := closed middle (Tree.isSome_at?_of_isDirectory directory)
      rw [eq_of_moves_nil rest, above] at other
      contradiction
    | down directory isName allowed found noLink => exact isName
    | follow directory isName allowed found followed => exact isName

/-- The names of a path to a file end in the name of the file. -/
theorem Tree.steps_of_find_file (lawful : tree.Lawful) {content : Content}
    (found : tree.find true path = .ok (place, .file content)) :
    IsFileName path.fileName ∧ path.names = steps path ∧
      ∃ left, Moves tree (.find true) (tree.position path) ⟨left, place, []⟩ := by
  obtain ⟨checked, leadsTo⟩ := lookUp_eq_ok_iff.1 (find_eq_ok_iff.1 found)
  obtain ⟨left, moves⟩ : ∃ left, Moves tree (.find true) (tree.position path) ⟨left, place, []⟩ := by
    obtain ⟨last, moves, ends⟩ := lookUp_eq_iff.1 leadsTo
    cases ends with
    | found there => exact ⟨_, moves⟩
  have other := isDirectory_of_find_file found
  rcases List.eq_nil_or_concat (steps path) with none | ⟨front, last, whole⟩
  · -- Without a name the path would lead to where it begins, and that is a directory.
    rw [position, none] at moves
    have begins : tree.isDirectory (tree.start path) = true := by
      unfold start
      split
      · exact isDirectory_iff.2 at?_root
      · exact lawful.workingDirectory
    rw [eq_of_moves_nil moves, begins] at other
    contradiction
  · rw [List.concat_eq_append] at whole
    have isName : IsName last := by
      rw [position, whole] at moves
      exact isName_of_moves lawful.closed moves other
    have named : path.units.getLast? ≠ some Path.separator := by
      intro ends
      rw [steps, if_pos ends] at whole
      obtain ⟨-, same⟩ := List.append_inj' whole rfl
      obtain rfl := List.head_eq_of_cons_eq same
      exact absurd isName.leads (by decide)
    have names : path.names = front ++ [last] := by rw [← steps_eq_names named, whole]
    have fileName : path.fileName = last := by
      have ends : path.components.getLast? = some (.name last) := by
        rw [Path.components_eq, ← Path.filter_leads_names, names, List.filter_append,
          List.filter_cons_of_pos isName.leads, List.filter_nil, List.map_append,
          ← List.append_assoc, List.map_singleton, List.getLast?_concat, Path.componentOf,
          if_neg isName.down]
      rw [Path.fileName, ends]
    have segment : last ∈ path.segments :=
      List.mem_of_mem_filter (names ▸ List.mem_append_right _ List.mem_cons_self)
    have inPath := Text.mem_of_mem_splitOn segment
    rw [fileName]
    exact ⟨⟨isName, fun mem => (inPath _ mem).1 rfl,
      fun mem => (checkPath_eq_ok_iff.1 checked).1 (inPath _ mem).2⟩, (steps_eq_names named).symm, left,
      moves⟩

/-- Nothing is found below a file. -/
theorem Tree.find_join_fileName (lawful : tree.Lawful) {content : Content}
    (found : tree.find true path = .ok (place, .file content)) :
    tree.find true (path.join ⟨path.fileName⟩) =
      .error (if Fits (path.join ⟨path.fileName⟩) then .notDirectory else .nameTooLong) := by
  have checked := checkPath_of_find found
  obtain ⟨isFileName, names, left, moves⟩ := steps_of_find_file lawful found
  have other := isDirectory_of_find_file found
  have fails : Position.lookUp ⟨maxLinks, tree.start path, path.names ++ [path.fileName]⟩ tree
      (.find true) = .error .notDirectory := by
    rw [names]
    exact (moves.append (.inl rfl)).lookUp_eq.trans (Ends.notDirectory other).lookUp_eq
  unfold find
  rw [lookUp_join checked isFileName, fails]
  split <;> rfl

end

/-- The place that a path without `.` and `..` leads to from the root. -/
def placeAt (text : String) : Place :=
  (Path.ofText text).segments

end PolicyPages.Files
