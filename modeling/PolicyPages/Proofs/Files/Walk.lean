import PolicyPages.Files.Walk
import PolicyPages.Proofs.Files.Children

/-!
# What a walk visits

A walk through a directory is a walk through what it holds, in turn, up to the first stop. What is
visited is named by the names that lead to it below the root (`LeadsBelow`), links being followed; and
its path is the root with these names, one after the other. Every file that is visited is found by its
path, unless this is too long to be used (`exists_seesFile`).
-/

namespace PolicyPages

/-- A path with more names, one after the other. -/
def Path.descend (path : Path) (names : List FileName) : Path :=
  names.foldl (fun path name => path.join ⟨name⟩) path

namespace Path

@[simp] theorem descend_nil (path : Path) : path.descend [] = path := rfl

@[simp] theorem descend_cons (path : Path) (name : FileName) (names : List FileName) :
    path.descend (name :: names) = (path.join ⟨name⟩).descend names := rfl

theorem descend_append (path : Path) (names more : List FileName) :
    path.descend (names ++ more) = (path.descend names).descend more :=
  List.foldl_append

theorem descend_concat (path : Path) (names : List FileName) (name : FileName) :
    path.descend (names ++ [name]) = (path.descend names).join ⟨name⟩ := by
  rw [descend_append, descend_cons, descend_nil]

theorem ofComponents_names (names : List FileName) :
    ofComponents (names.map .name) = ⟨[separator].intercalate names⟩ := by
  cases names with
  | nil => rfl
  | cons first rest => simp [ofComponents, Component.units, Function.comp_def]

end Path

namespace Files

open PolicyPages.Path (separator ofComponents)

/-- A path that is made of names in one step and one that is made name by name are the same. -/
theorem join_ofComponents (root : Path) {names : List FileName} (nonempty : names ≠ [])
    (allowed : ∀ name ∈ names, IsFileName name) :
    root.join (ofComponents (names.map .name)) = root.descend names := by
  induction names generalizing root with
  | nil => contradiction
  | cons name rest ih =>
    obtain ⟨isFileName, others⟩ := List.forall_mem_cons.1 allowed
    cases rest with
    | nil => rw [Path.ofComponents_names, List.intercalate_singleton, Path.descend_cons, Path.descend_nil]
    | cons next more =>
      -- The first name stands in front of the others as what they are joined to.
      have relative : (ofComponents ((next :: more).map .name)).isAbsolute = false := by
        have opens : next <+: [separator].intercalate (next :: more) :=
          Text.head_prefix_intercalate (List.cons_ne_nil next more)
        obtain ⟨behind, whole⟩ := opens
        have nextAllowed := others next List.mem_cons_self
        rw [Path.ofComponents_names, Path.isAbsolute]
        simp only [← whole]
        rw [Path.head?_append_of_ne_nil nextAllowed.ne_nil]
        exact nextAllowed.isAbsolute
      have cut : ofComponents ((name :: next :: more).map .name) =
          (Path.mk name).join (ofComponents ((next :: more).map .name)) := by
        have opened : Path.opened name = name ++ [separator] :=
          if_neg (by
            simp only [Bool.or_eq_true, List.isEmpty_iff, decide_eq_true_eq, not_or]
            exact ⟨isFileName.ne_nil, fun last => isFileName.noSeparator (List.mem_of_getLast? last)⟩)
        have units : ((Path.mk name).join (ofComponents ((next :: more).map .name))).units =
            Path.opened name ++ (ofComponents ((next :: more).map .name)).units :=
          Path.units_join relative
        rw [opened, Path.ofComponents_names] at units
        rw [Path.ofComponents_names, Path.ofComponents_names]
        refine congrArg Path.mk (Eq.trans ?_ units.symm)
        simp
      rw [cut, ← Path.join_assoc, ih _ (List.cons_ne_nil _ _) others, Path.descend_cons _ name]

theorem names_ofComponents {names : List FileName} (nonempty : names ≠ [])
    (allowed : ∀ name ∈ names, IsFileName name) :
    (ofComponents (names.map .name)).names = names := by
  have segments : (ofComponents (names.map .name)).segments = names :=
    Path.segments_of_units nonempty (fun name mem => (allowed name mem).noSeparator)
      (by rw [Path.ofComponents_names])
  rw [Path.names, segments, List.filter_eq_self]
  exact fun name mem => decide_eq_true (allowed name mem).ne_nil

/-! ### Walks in turn -/

namespace Walk

variable {α : Type} {part : α → Walk} {items : List α} {walk : Walk} {error : WalkError}

/-- Walks through parts in turn, up to the first stop. -/
def inTurn (part : α → Walk) (items : List α) (walk : Walk) : Walk :=
  items.foldl (fun walk item => walk.andThen fun _ => part item) walk

theorem inTurn_of_stop (stopped : walk.stop = some error) : inTurn part items walk = walk := by
  induction items with
  | nil => rfl
  | cons item rest ih =>
    rw [inTurn, List.foldl_cons, andThen, stopped]
    exact ih

theorem inTurn_cons (going : walk.stop = none) (item : α) (rest : List α) :
    inTurn part (item :: rest) walk =
      inTurn part rest ⟨walk.visits ++ (part item).visits, (part item).stop⟩ := by
  rw [inTurn, List.foldl_cons, andThen, going]
  rfl

/-- Whatever is visited is visited at the beginning or in a part. -/
theorem of_mem_visits_inTurn {visit : Visit} (mem : visit ∈ (inTurn part items walk).visits) :
    visit ∈ walk.visits ∨ ∃ item ∈ items, visit ∈ (part item).visits := by
  induction items generalizing walk with
  | nil => exact .inl mem
  | cons item rest ih =>
    cases stop : walk.stop with
    | some error =>
      rw [inTurn_of_stop stop] at mem
      exact .inl mem
    | none =>
      rw [inTurn_cons stop] at mem
      rcases ih mem with before | ⟨other, isOther, mem⟩
      · exact (List.mem_append.1 before).imp_right fun mem => ⟨item, List.mem_cons_self, mem⟩
      · exact .inr ⟨other, List.mem_cons_of_mem _ isOther, mem⟩

/-- Walks in turn stop where a part stops; if none does, all parts are visited in turn. -/
theorem inTurn_cases (going : walk.stop = none) :
    (∃ item ∈ items, ∃ error, (part item).stop = some error ∧
      (inTurn part items walk).stop = some error) ∨
    (∀ item ∈ items, (part item).stop = none) ∧ (inTurn part items walk).stop = none ∧
      (inTurn part items walk).visits = walk.visits ++ items.flatMap fun item => (part item).visits := by
  induction items generalizing walk with
  | nil => exact .inr ⟨by simp, going, by simp [inTurn]⟩
  | cons item rest ih =>
    rw [inTurn_cons going]
    cases stop : (part item).stop with
    | some error =>
      exact .inl ⟨item, List.mem_cons_self, error, stop, by rw [inTurn_of_stop rfl]⟩
    | none =>
      have going : (⟨walk.visits ++ (part item).visits, none⟩ : Walk).stop = none := rfl
      rcases ih going with ⟨other, isOther, error, stops, same⟩ | ⟨goOn, none, visits⟩
      · exact .inl ⟨other, List.mem_cons_of_mem _ isOther, error, stops, same⟩
      · refine .inr ⟨List.forall_mem_cons.2 ⟨stop, goOn⟩, none, ?_⟩
        rw [visits, List.flatMap_cons, List.append_assoc]

end Walk

section

variable {tree : Tree} {ancestors : List Ancestor} {path root : Path} {place : Place} {node : Node}
  {names : List FileName} {depth : Nat} {error : WalkError} {content : Content} {a : Position}
  {result : Except Error Target}

/-! ### Entering -/

/-- Not to follow a link at the end makes a difference only if there is one. -/
theorem Ends.find (ends : Ends tree (.find false) a result) :
    Ends tree (.find true) a result ∨ ∃ place target, result = .ok (.found place (.link target)) := by
  cases ends with
  | found there => exact .inl (.found there)
  | nothing free => exact .inl (.nothing free)
  | notDirectory other => exact .inl (.notDirectory other)
  | asDirectory directory leads down refused => exact absurd refused.1 nofun
  | tooLong directory leads down allowed long => exact .inl (.tooLong directory leads down nofun long)
  | free directory isName free => exact .inl (.free directory isName free)
  | missing directory isName allowed free more =>
    exact .inl (.missing directory isName nofun free more)
  | link directory isName allowed found unfollowed => exact .inr ⟨_, _, rfl⟩
  | exhausted directory isName allowed found followed =>
    exact .inl (.exhausted directory isName nofun found (by simp [follows]))

theorem lookUp_find_false (tree : Tree) (a : Position) :
    a.lookUp tree (.find false) = a.lookUp tree (.find true) ∨
      ∃ place target, a.lookUp tree (.find false) = .ok (.found place (.link target)) := by
  obtain ⟨last, result, moves, ends⟩ := exists_ends tree (.find false) a
  have same : a.lookUp tree (.find true) = last.lookUp tree (.find true) := by
    have moves : Moves tree (.find true) a last := by
      refine moves.lift id fun a b move => ?_
      cases move with
      | stay directory still => exact .stay directory still
      | up directory => exact .up directory
      | down directory isName allowed found noLink => exact .down directory isName nofun found noLink
      | follow directory isName allowed found followed =>
        exact .follow directory isName nofun found (by simp [follows])
    exact moves.lookUp_eq
  rw [moves.lookUp_eq, ends.lookUp_eq, same]
  exact ends.find.imp_left fun ends => ends.lookUp_eq.symm

theorem find_false (tree : Tree) (path : Path) :
    tree.find false path = tree.find true path ∨
      ∃ place target, tree.find false path = .ok (place, .link target) := by
  unfold Tree.find Tree.lookUp
  cases checkPath path with
  | error error => exact .inl rfl
  | ok =>
    rcases lookUp_find_false tree (tree.position path) with same | ⟨place, target, found⟩
    · exact .inl (congrArg (fun found : Except Error Target => found >>= _) same)
    · exact .inr ⟨place, target, congrArg (fun found : Except Error Target => found >>= _) found⟩

/-- What is entered is what the path leads to, all links being followed; only a link may be refused
where it leads to a directory. -/
theorem entered_cases (tree : Tree) (ancestors : List Ancestor) (path : Path) :
    (∃ found, tree.find true path = .ok found ∧ entered tree ancestors path = .ok found) ∨
    (∃ error, tree.find true path = .error error ∧
      entered tree ancestors path = .error (.access path error)) ∨
    (∃ place target, tree.find false path = .ok (place, .link target)) ∧
      ∃ ancestor, entered tree ancestors path = .error (.loop path ancestor) := by
  have followed (noLink : ∀ place target, tree.find false path ≠ .ok (place, .link target)) :
      tree.find true path = tree.find false path :=
    (find_false tree path).elim Eq.symm fun ⟨place, target, link⟩ => absurd link (noLink place target)
  unfold entered
  cases first : tree.find false path with
  | error error =>
    rw [first] at followed
    exact .inr (.inl ⟨error, followed nofun, rfl⟩)
  | ok found =>
    rw [first] at followed
    obtain ⟨place, node⟩ := found
    cases node with
    | file content => exact .inl ⟨_, followed nofun, rfl⟩
    | directory => exact .inl ⟨_, followed nofun, rfl⟩
    | link target =>
      cases last : tree.find true path with
      | error error => exact .inr (.inl ⟨error, rfl, rfl⟩)
      | ok found =>
        obtain ⟨goal, node⟩ := found
        cases node with
        | file content => exact .inl ⟨_, rfl, rfl⟩
        | link target => exact .inl ⟨_, rfl, rfl⟩
        | directory =>
          cases within : ancestors.find? (·.place = goal) with
          | none => exact .inl ⟨_, rfl, by simp only [within]⟩
          | some ancestor =>
            exact .inr (.inr ⟨⟨place, target, rfl⟩, ancestor.path, by simp only [within]⟩)

theorem find_of_entered (enters : entered tree ancestors path = .ok (place, node)) :
    tree.find true path = .ok (place, node) := by
  rcases entered_cases tree ancestors path with
    ⟨found, leads, same⟩ | ⟨error, -, same⟩ | ⟨-, ancestor, same⟩
  · rw [leads, Except.ok.inj (same.symm.trans enters)]
  · rw [same] at enters
    contradiction
  · rw [same] at enters
    contradiction

/-! ### The steps of a walk -/

/-- The walk through one thing that a directory holds. -/
def walkChild (tree : Tree) (depth : Nat) (ancestors : List Ancestor) (path : Path)
    (names : List FileName) (directory : Place) (name : FileName) : Walk :=
  match tree.at? (directory ++ [name]) with
  | some (.file _) => ⟨[⟨path.join ⟨name⟩, names ++ [name], true⟩], none⟩
  | _ => walkFrom tree depth ancestors (path.join ⟨name⟩) (names ++ [name])

theorem walkFrom_of_error (enters : entered tree ancestors path = .error error) :
    walkFrom tree depth ancestors path names = .stopped error := by
  unfold walkFrom
  rw [enters]

theorem walkFrom_of_file (enters : entered tree ancestors path = .ok (place, .file content)) :
    walkFrom tree depth ancestors path names = ⟨[⟨path, names, true⟩], none⟩ := by
  unfold walkFrom
  rw [enters]

theorem walkFrom_zero (enters : entered tree ancestors path = .ok (place, .directory)) :
    walkFrom tree 0 ancestors path names = ⟨[⟨path, names, false⟩], none⟩ := by
  unfold walkFrom
  rw [enters]

theorem walkFrom_succ (enters : entered tree ancestors path = .ok (place, .directory)) :
    walkFrom tree (depth + 1) ancestors path names =
      Walk.inTurn (walkChild tree depth (⟨place, path⟩ :: ancestors) path names place)
        (tree.children place) ⟨[⟨path, names, false⟩], none⟩ := by
  rw [walkFrom, enters]
  rfl

/-- A walk visits the file that it begins with, or a directory and what is visited in it. -/
theorem of_mem_visits_walkFrom {visit : Visit}
    (mem : visit ∈ (walkFrom tree depth ancestors path names).visits) :
    (∃ place content, tree.find true path = .ok (place, .file content) ∧
      visit = ⟨path, names, true⟩) ∨
    ∃ place, tree.find true path = .ok (place, .directory) ∧
      (visit = ⟨path, names, false⟩ ∨ ∃ before < depth, ∃ name ∈ tree.children place,
        visit ∈ (walkChild tree before (⟨place, path⟩ :: ancestors) path names place name).visits) := by
  cases enters : entered tree ancestors path with
  | error error =>
    rw [walkFrom_of_error enters] at mem
    contradiction
  | ok found =>
    obtain ⟨place, node⟩ := found
    cases node with
    | link target =>
      rw [walkFrom, enters] at mem
      contradiction
    | file content =>
      rw [walkFrom_of_file enters] at mem
      exact .inl ⟨place, content, find_of_entered enters, List.mem_singleton.1 mem⟩
    | directory =>
      refine .inr ⟨place, find_of_entered enters, ?_⟩
      cases depth with
      | zero =>
        rw [walkFrom_zero enters] at mem
        exact .inl (List.mem_singleton.1 mem)
      | succ before =>
        rw [walkFrom_succ enters] at mem
        rcases Walk.of_mem_visits_inTurn mem with here | ⟨name, listed, mem⟩
        · exact .inl (List.mem_singleton.1 here)
        · exact .inr ⟨before, Nat.lt_succ_self before, name, listed, mem⟩

/-! ### Files that are visited -/

/-- Names lead to a place below a root: each of them is listed in the directory that the names before
it lead to, and links are followed. -/
inductive LeadsBelow (tree : Tree) (root : Path) : List FileName → Place → Prop
  | root {place : Place} {node : Node} (found : tree.find true root = .ok (place, node)) :
      LeadsBelow tree root [] place
  | child {names : List FileName} {directory place : Place} {name : FileName} {links : Nat}
      {node : Node} (above : LeadsBelow tree root names directory)
      (listed : name ∈ tree.children directory)
      (found : Position.lookUp ⟨links, directory, [name]⟩ tree (.find true) = .ok (.found place node)) :
      LeadsBelow tree root (names ++ [name]) place

theorem leadsBelow_nil_iff :
    LeadsBelow tree root [] place ↔ ∃ node, tree.find true root = .ok (place, node) := by
  refine ⟨fun leads => ?_, fun ⟨node, found⟩ => .root found⟩
  generalize none : [] = names at leads
  cases leads with
  | root found => exact ⟨_, found⟩
  | child above listed found => simp at none

theorem LeadsBelow.isFileName (lawful : tree.Lawful) (leads : LeadsBelow tree root names place) :
    ∀ name ∈ names, IsFileName name := by
  induction leads with
  | root found => simp
  | child above listed found ih =>
    refine List.forall_mem_append.2 ⟨ih, List.forall_mem_singleton.2 ?_⟩
    exact lawful.isFileName (Tree.mem_children_iff.1 listed) (by simp)

/-- A visit is of the file at a place: the names lead there below the root, and so does the path, which
is made of the root and the names, unless it is too long. -/
structure SeesFile (tree : Tree) (root : Path) (visit : Visit) (place : Place) (content : Content) :
    Prop where
  path : visit.path = root.descend visit.names
  leads : LeadsBelow tree root visit.names place
  there : tree.at? place = some (.file content)
  find : tree.find true visit.path =
    if Fits visit.path then .ok (place, .file content) else .error .nameTooLong

theorem SeesFile.of_find (isPath : path = root.descend names) (leads : LeadsBelow tree root names place)
    (found : tree.find true path = .ok (place, .file content)) :
    SeesFile tree root ⟨path, names, true⟩ place content where
  path := isPath
  leads := leads
  there := Tree.at?_of_find found
  find := by rw [if_pos (Tree.fits_of_find found), found]

/-- Every file that a walk visits is found by its path. The induction is on how deep the walk goes; it
is carried by the path being that of the names, and leading where the names do. -/
theorem exists_seesFile (lawful : tree.Lawful) (isPath : path = root.descend names)
    (leads : ∀ place node, tree.find true path = .ok (place, node) → LeadsBelow tree root names place) :
    ∀ visit ∈ (walkFrom tree depth ancestors path names).visits, visit.isFile = true →
      ∃ place content, SeesFile tree root visit place content := by
  intro visit mem isFile
  induction depth using Nat.strong_induction_on generalizing ancestors path names with
  | _ depth ih =>
    rcases of_mem_visits_walkFrom mem with
      ⟨place, content, found, rfl⟩ | ⟨directory, found, rfl | ⟨before, less, name, listed, mem⟩⟩
    · exact ⟨place, content, .of_find isPath (leads _ _ found) found⟩
    · contradiction
    · have isChild := Tree.mem_children_iff.1 listed
      have isFileName := lawful.isFileName isChild (List.mem_append_right _ List.mem_cons_self)
      have isPathBelow : path.join ⟨name⟩ = root.descend (names ++ [name]) := by
        rw [isPath, Path.descend_concat]
      unfold walkChild at mem
      split at mem
      · -- A file that is listed is visited, however long its path is.
        rename_i content there
        obtain rfl := List.mem_singleton.1 mem
        have isDirectory := Tree.isDirectory_of_find found
        have named : Position.lookUp ⟨0, directory, [name]⟩ tree (.find true) =
            .ok (.found (directory ++ [name]) (.file content)) :=
          lookUp_name isDirectory isFileName.toIsName there nofun
        exact ⟨directory ++ [name], content, isPathBelow, .child (leads _ _ found) listed named, there,
          Tree.find_join found isFileName there nofun⟩
      · obtain ⟨links, behind⟩ := Tree.exists_lookUp_join found
        refine ih before less isPathBelow (fun place node below => ?_) mem
        have leadsThere := Tree.find_eq_ok_iff.1 below
        rw [behind name isFileName] at leadsThere
        split at leadsThere
        · exact .child (leads _ _ found) listed leadsThere
        · contradiction

end

end Files

end PolicyPages
