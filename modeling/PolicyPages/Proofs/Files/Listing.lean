import Mathlib.Data.List.Nodup
import PolicyPages.Proofs.Files.Walk

/-!
# The files below a directory

The files at a place and below it, as the lists of names that lead to them (`Tree.filesBelow`): just those
that are there (`Tree.Closed.mem_filesBelow_iff`), in strictly ascending order, name by name and byte by
byte (`Tree.Lawful.pairwise_filesBelow`). A walk through a directory without links visits them in this
order, or stops at a directory whose path is too long (`walkFrom_completes_or_stops`); and it goes as
deep as there are names (`Tree.Closed.length_le`).
-/

namespace PolicyPages.Files

namespace Tree

/-- The names that lead to the files at a place and below it, `depth` names at most: what a directory
holds in its order, each file where its directory stands. -/
def filesBelow (tree : Tree) : (depth : Nat) → Place → List (List FileName)
  | depth, place =>
    match tree.at? place with
    | some (.file _) => [[]]
    | some .directory =>
      match depth with
      | 0 => []
      | depth + 1 =>
        (tree.children place).flatMap fun name =>
          (filesBelow tree depth (place ++ [name])).map (name :: ·)
    | _ => []

section

variable {tree : Tree} {place : Place} {names : List FileName} {depth : Nat}

theorem filesBelow_of_file {content : Content} (there : tree.at? place = some (.file content)) :
    tree.filesBelow depth place = [[]] := by
  rw [filesBelow.eq_def]
  simp only [there]

theorem filesBelow_zero (directory : tree.isDirectory place = true) : tree.filesBelow 0 place = [] := by
  rw [filesBelow, isDirectory_iff.1 directory]

theorem filesBelow_succ (directory : tree.isDirectory place = true) :
    tree.filesBelow (depth + 1) place =
      (tree.children place).flatMap fun name =>
        (tree.filesBelow depth (place ++ [name])).map (name :: ·) := by
  rw [filesBelow, isDirectory_iff.1 directory]

/-- Whatever lies below a place lies in a directory. -/
theorem Closed.isDirectory_above (closed : tree.Closed) {name : FileName}
    (there : (tree.at? (place ++ name :: names)).isSome) : tree.isDirectory place = true := by
  induction names generalizing place name with
  | nil =>
    have directory := closed _ there
    rwa [List.dropLast_concat] at directory
  | cons next rest ih =>
    rw [List.append_cons] at there
    have directory := closed _ (isSome_at?_of_isDirectory (ih there))
    rwa [List.dropLast_concat] at directory

/-- The names of what lies below a directory begin with one that the directory lists. -/
theorem Closed.mem_children (closed : tree.Closed) {name : FileName}
    (there : (tree.at? (place ++ name :: names)).isSome) : name ∈ tree.children place := by
  rw [mem_children_iff]
  rw [List.append_cons] at there
  cases names with
  | nil => rwa [List.append_nil] at there
  | cons next rest =>
    exact isSome_at?_of_isDirectory (closed.isDirectory_above there)

/-- Nothing lies below what is no directory. -/
theorem Closed.eq_nil_of_other (closed : tree.Closed) (other : tree.at? place ≠ some .directory)
    {node : Node} (there : tree.at? (place ++ names) = some node) : names = [] := by
  cases names with
  | nil => rfl
  | cons name rest =>
    have directory := closed.isDirectory_above (Option.isSome_iff_exists.2 ⟨node, there⟩)
    exact absurd (isDirectory_iff.1 directory) other

/-- Just the files that are there are listed. -/
theorem Closed.mem_filesBelow_iff (closed : tree.Closed) :
    names ∈ tree.filesBelow depth place ↔
      (∃ content, tree.at? (place ++ names) = some (.file content)) ∧ names.length ≤ depth := by
  fun_induction tree.filesBelow depth place generalizing names with
  | case1 depth place content there =>
    rw [List.mem_singleton]
    constructor
    · rintro rfl
      exact ⟨⟨content, by rwa [List.append_nil]⟩, Nat.zero_le _⟩
    · rintro ⟨⟨content, found⟩, -⟩
      refine closed.eq_nil_of_other ?_ found
      rw [there]
      exact nofun
  | case2 place there =>
    refine ⟨nofun, fun ⟨⟨content, found⟩, short⟩ => ?_⟩
    rw [List.length_eq_zero_iff.1 (Nat.le_zero.1 short), List.append_nil, there] at found
    exact absurd found (by simp)
  | case3 place there depth ih =>
    simp only [List.mem_flatMap, List.mem_map, ih]
    constructor
    · rintro ⟨name, -, rest, ⟨⟨content, found⟩, short⟩, rfl⟩
      exact ⟨⟨content, by rw [List.append_cons, found]⟩, Nat.succ_le_succ short⟩
    · rintro ⟨⟨content, found⟩, short⟩
      cases names with
      | nil =>
        rw [List.append_nil, there] at found
        exact absurd found (by simp)
      | cons name rest =>
        have listed := closed.mem_children (Option.isSome_iff_exists.2 ⟨_, found⟩)
        rw [List.append_cons] at found
        exact ⟨name, listed, rest, ⟨⟨content, found⟩, Nat.le_of_succ_le_succ short⟩, rfl⟩
  | case4 depth place notFile notDirectory =>
    refine ⟨nofun, fun ⟨⟨content, found⟩, _⟩ => ?_⟩
    rw [closed.eq_nil_of_other notDirectory found, List.append_nil] at found
    exact (notFile content found).elim

/-- The files are listed in strictly ascending order: name by name, and each name byte by byte. -/
theorem Lawful.pairwise_filesBelow (lawful : tree.Lawful) (depth : Nat) (place : Place) :
    (tree.filesBelow depth place).Pairwise fun a b =>
      a.map FileName.bytes < b.map FileName.bytes := by
  fun_induction tree.filesBelow depth place with
  | case1 depth place content there => exact List.pairwise_singleton ..
  | case2 place there => exact .nil
  | case3 place there depth ih =>
    refine List.pairwise_flatMap.2 ⟨fun name _ => ?_, ?_⟩
    · refine List.pairwise_map.2 ((ih name).imp fun less => ?_)
      exact List.cons_lt_cons_iff.2 (.inr ⟨rfl, less⟩)
    · refine (lawful.pairwise_children place).imp fun {first second} less => ?_
      intro a isA b isB
      obtain ⟨_, -, rfl⟩ := List.mem_map.1 isA
      obtain ⟨_, -, rfl⟩ := List.mem_map.1 isB
      exact List.cons_lt_cons_iff.2 (.inl less)
  | case4 depth place notFile notDirectory => exact .nil

/-- Files and directories whose names begin alike, and a directory that is named as a rule source. -/
def interleavedFiles : Tree where
  entries :=
    [(placeAt "repo", .directory),
      (placeAt "repo/a.rego", .file (.text "package a\n")),
      (placeAt "repo/a", .directory),
      (placeAt "repo/a/b_test.rego", .file (.text "package a.b\n")),
      (placeAt "repo/a/b.rego", .file (.text "package a.b\n")),
      (placeAt "repo/a-b.rego", .file (.text "package a_b\n")),
      (placeAt "repo/d.rego", .directory),
      (placeAt "repo/d.rego/x.rego", .file (.text "package x\n"))]
  workingDirectory := []

/-- Names are compared one by one, so what is in the directory `a` comes before `a-b.rego`. -/
example : interleavedFiles.filesBelow 2 (placeAt "repo") =
    ["a/b.rego", "a/b_test.rego", "a-b.rego", "a.rego", "d.rego/x.rego"].map placeAt := by
  cbv

/-- No way down is longer than there are entries, since each step of it is one. -/
theorem Closed.length_le (closed : tree.Closed) (there : (tree.at? place).isSome) :
    place.length ≤ tree.entries.length := by
  let steps := (List.range place.length).map fun count => place.take (count + 1)
  have distinct : steps.Nodup := by
    refine List.Nodup.map_on (fun a isA b isB same => ?_) List.nodup_range
    have lengths := congrArg List.length same
    rw [List.length_take_of_le (List.mem_range.1 isA),
      List.length_take_of_le (List.mem_range.1 isB)] at lengths
    exact Nat.succ.inj lengths
  have inTree : steps ⊆ tree.entries.map Prod.fst := by
    intro front isStep
    obtain ⟨count, less, rfl⟩ := List.mem_map.1 isStep
    rw [List.mem_range] at less
    refine (isSome_at?_iff ?_).1 ?_
    · exact List.ne_nil_of_length_pos (by rw [List.length_take_of_le less]; exact Nat.succ_pos _)
    · cases rest : place.drop (count + 1) with
      | nil => rwa [List.take_of_length_le (List.drop_eq_nil_iff.1 rest)]
      | cons name names =>
        rw [← List.take_append_drop (count + 1) place, rest] at there
        exact isSome_at?_of_isDirectory (closed.isDirectory_above there)
  have short := distinct.length_le_of_subset inTree
  rwa [List.length_map, List.length_range, List.length_map] at short

end

end Tree

/-! ### A walk without links -/

section

variable {tree : Tree} {ancestors : List Ancestor} {path : Path} {place : Place} {node : Node}
  {names : List FileName} {depth : Nat} {error : Error} {walk : Walk}

theorem Tree.at?_ne_link (free : tree.isLinkFree = true) (place : Place) (target : Path) :
    tree.at? place ≠ some (.link target) := by
  intro there
  exact noLinksBelow_of_isLinkFree free place [] target (by
    rw [List.append_nil]
    exact kind?_eq_link_iff.2 there)

/-- Where there are no links, what is entered is what the path leads to. -/
theorem entered_eq (free : tree.isLinkFree = true) (ancestors : List Ancestor) (path : Path) :
    entered tree ancestors path = (tree.find true path).mapError (.access path) := by
  rcases entered_cases tree ancestors path with
    ⟨found, leads, same⟩ | ⟨error, fails, same⟩ | ⟨⟨link, target, isLink⟩, -⟩
  · rw [leads, same]
    rfl
  · rw [fails, same]
    rfl
  · exact absurd (Tree.at?_of_find isLink) (Tree.at?_ne_link free link target)

/-- A walk has come to its end: it has visited all files at a place and below it, in their order, and the
path of no directory there was too long for it. -/
structure Completes (tree : Tree) (depth : Nat) (path : Path) (names : List FileName) (place : Place)
    (walk : Walk) : Prop where
  stop : walk.stop = none
  files : walk.visits.filter (·.isFile) =
    (tree.filesBelow depth place).map fun below => ⟨path.descend below, names ++ below, true⟩
  fits : ∀ below, below.length ≤ depth → tree.isDirectory (place ++ below) = true →
    Fits (path.descend below)

/-- A walk has stopped at a directory whose path is too long. -/
def StopsAtLongPath (tree : Tree) (path : Path) (place : Place) (walk : Walk) : Prop :=
  ∃ below, tree.isDirectory (place ++ below) = true ∧ ¬Fits (path.descend below) ∧
    walk.stop = some (.access (path.descend below) .nameTooLong)

/-- What becomes of a walk through what is at a place and below it. -/
def CompletesOrStops (tree : Tree) (depth : Nat) (path : Path) (names : List FileName) (place : Place)
    (walk : Walk) : Prop :=
  Completes tree depth path names place walk ∨ StopsAtLongPath tree path place walk

/-- One thing in a directory is a file, which is visited, or a directory, which is walked through. -/
theorem completesOrStops_walkChild (lawful : tree.Lawful) (free : tree.isLinkFree = true)
    (found : tree.find true path = .ok (place, .directory)) {name : FileName}
    (listed : name ∈ tree.children place)
    (below : tree.isDirectory (place ++ [name]) = true →
      tree.find true (path.join ⟨name⟩) =
        (if Fits (path.join ⟨name⟩) then .ok (place ++ [name], .directory) else .error .nameTooLong) →
      CompletesOrStops tree depth (path.join ⟨name⟩) (names ++ [name]) (place ++ [name])
        (walkFrom tree depth ancestors (path.join ⟨name⟩) (names ++ [name]))) :
    CompletesOrStops tree depth (path.join ⟨name⟩) (names ++ [name]) (place ++ [name])
      (walkChild tree depth ancestors path names place name) := by
  have isChild := Tree.mem_children_iff.1 listed
  have isFileName := lawful.isFileName isChild (List.mem_append_right _ List.mem_cons_self)
  obtain ⟨node, there⟩ := Option.isSome_iff_exists.1 isChild
  cases node with
  | link target => exact absurd there (Tree.at?_ne_link free _ target)
  | directory =>
    rw [walkChild, there]
    exact below (Tree.isDirectory_iff.2 there) (Tree.find_join found isFileName there nofun)
  | file content =>
    rw [walkChild, there]
    refine .inl ⟨rfl, ?_, fun inside _ directory => ?_⟩
    · rw [Tree.filesBelow_of_file there, List.map_singleton, Path.descend_nil, List.append_nil]
      rfl
    · have isDirectory := Tree.isDirectory_iff.1 directory
      have nothing := lawful.closed.eq_nil_of_other (by simp [there]) isDirectory
      rw [nothing, List.append_nil, there] at isDirectory
      simp at isDirectory

/-- A directory whose path is not too long is walked through to the end if all that it holds is, and
otherwise up to the first stop. -/
theorem completesOrStops_inTurn (lawful : tree.Lawful) (directory : tree.isDirectory place = true)
    (fits : Fits path) {part : FileName → Walk}
    (parts : ∀ name ∈ tree.children place,
      CompletesOrStops tree depth (path.join ⟨name⟩) (names ++ [name]) (place ++ [name]) (part name)) :
    CompletesOrStops tree (depth + 1) path names place
      (Walk.inTurn part (tree.children place) ⟨[⟨path, names, false⟩], none⟩) := by
  have going : (⟨[⟨path, names, false⟩], none⟩ : Walk).stop = none := rfl
  rcases @Walk.inTurn_cases _ part (tree.children place) _ going with
    ⟨name, listed, error, stop, same⟩ | ⟨goOn, stop, visits⟩
  · rcases parts name listed with completes | ⟨below, isDirectory, long, stops⟩
    · rw [completes.stop] at stop
      contradiction
    · refine .inr ⟨name :: below, ?_, long, ?_⟩
      · rwa [List.append_cons]
      · rw [same, ← stop, stops]
        rfl
  · have complete : ∀ name ∈ tree.children place,
        Completes tree depth (path.join ⟨name⟩) (names ++ [name]) (place ++ [name]) (part name) := by
      intro name listed
      refine (parts name listed).resolve_right fun ⟨below, _, _, stops⟩ => ?_
      rw [goOn name listed] at stops
      contradiction
    refine .inl ⟨stop, ?_, fun below short isDirectory => ?_⟩
    · rw [visits, List.filter_append, List.filter_flatMap, Tree.filesBelow_succ directory,
        List.map_flatMap]
      refine List.flatMap_congr fun name listed => ?_
      rw [(complete name listed).files, List.map_map]
      refine List.map_congr_left fun below _ => ?_
      rw [Function.comp_apply, Path.descend_cons, List.append_assoc, List.singleton_append]
    · cases below with
      | nil => exact fits
      | cons name rest =>
        have listed := lawful.closed.mem_children (Tree.isSome_at?_of_isDirectory isDirectory)
        rw [List.append_cons] at isDirectory
        exact (complete name listed).fits rest (Nat.le_of_succ_le_succ short) isDirectory

/-- A directory is entered unless its path is too long. -/
theorem entered_or_stops (free : tree.isLinkFree = true) (directory : tree.isDirectory place = true)
    (leads : tree.find true path = if Fits path then .ok (place, .directory) else .error .nameTooLong) :
    Fits path ∧ tree.find true path = .ok (place, .directory) ∧
        entered tree ancestors path = .ok (place, .directory) ∨
      StopsAtLongPath tree path place (walkFrom tree depth ancestors path names) := by
  by_cases fits : Fits path
  · rw [if_pos fits] at leads
    refine .inl ⟨fits, leads, ?_⟩
    rw [entered_eq free, leads]
    rfl
  · rw [if_neg fits] at leads
    have refused : entered tree ancestors path = .error (.access path .nameTooLong) := by
      rw [entered_eq free, leads]
      rfl
    refine .inr ⟨[], by rwa [List.append_nil], fits, ?_⟩
    rw [walkFrom_of_error refused]
    rfl

/-- A walk through a directory without links goes on to its end, unless it stops at a directory whose path
is too long. The induction is on how deep the walk goes. -/
theorem walkFrom_completes_or_stops (lawful : tree.Lawful) (free : tree.isLinkFree = true)
    (directory : tree.isDirectory place = true)
    (leads : tree.find true path = if Fits path then .ok (place, .directory) else .error .nameTooLong) :
    CompletesOrStops tree depth path names place (walkFrom tree depth ancestors path names) := by
  induction depth generalizing ancestors path names place with
  | zero =>
    rcases entered_or_stops free directory leads with ⟨fits, -, enters⟩ | stops
    · rw [walkFrom_zero enters]
      refine .inl ⟨rfl, by rw [Tree.filesBelow_zero directory]; rfl, fun below short _ => ?_⟩
      rw [List.length_eq_zero_iff.1 (Nat.le_zero.1 short)]
      exact fits
    · exact .inr stops
  | succ depth ih =>
    rcases entered_or_stops free directory leads with ⟨fits, found, enters⟩ | stops
    · rw [walkFrom_succ enters]
      exact completesOrStops_inTurn lawful directory fits fun name listed =>
        completesOrStops_walkChild lawful free found listed ih
    · exact .inr stops

end

end PolicyPages.Files
