import Mathlib.Data.List.Infix
import PolicyPages.Proofs.Discovery
import PolicyPages.Proofs.Files.Listing

/-!
# What is found, and in which order

In a tree without links, and below roots that are directories, discovery finds just the rule sources,
root by root and each root in strictly ascending order, if no directory there has a path that is too
long; otherwise it fails with the path of such a directory (`modules_ascending`). A path may be too long
for a directory that is there (`not_every_module_found`).
-/

namespace PolicyPages.Discovery

open Files

/-- The path below a root of a rule source: of a file below the root under a name that ends in the rule
suffix, and not in that of tests. -/
def IsRuleModule (tree : Tree) (settings : DiscoverySettings) (root file : Path) : Prop :=
  ∃ top names name content,
    tree.find true root = .ok (top, .directory) ∧
    tree.at? (top ++ (names ++ [(Path.ofText name).units])) = some (.file content) ∧
    file = Path.ofComponents ((names ++ [(Path.ofText name).units]).map .name) ∧
    settings.ruleSuffix.toList <:+ name.toList ∧ ¬ settings.testSuffix.toList <:+ name.toList

/-- Modules that are those below one root, each once, in the order of the names on the way to them. -/
structure ListsModules (tree : Tree) (settings : DiscoverySettings) (root : Path)
    (found : List FoundModule) : Prop where
  under : ∀ module ∈ found, module.root = root
  mem_iff : ∀ file, ⟨root, file⟩ ∈ found ↔ IsRuleModule tree settings root file
  ascending : found.Pairwise fun a b =>
    a.file.names.map FileName.bytes < b.file.names.map FileName.bytes

/-- No directory at a root or below it has a path that is too long. -/
def DirectoriesFit (tree : Tree) (root : Path) : Prop :=
  ∀ top below, tree.find true root = .ok (top, .directory) →
    tree.isDirectory (top ++ below) = true → Fits (root.descend below)

section

variable {tree : Tree} {settings : DiscoverySettings} {root : Path} {roots : List Path}
  {top : Place} {below : List FileName} {found : FoundModule} {all : List FoundModule}

/-- The module of a file that a walk has visited. -/
def moduleOf? (settings : DiscoverySettings) (root : Path) (below : List FileName) :
    Option FoundModule :=
  moduleAt? settings root ⟨root.descend below, below, true⟩

theorem isRuleSource_iff {name : String} :
    isRuleSource settings name = true ↔
      settings.ruleSuffix.toList <:+ name.toList ∧ ¬ settings.testSuffix.toList <:+ name.toList := by
  rw [isRuleSource, Bool.and_eq_true, Bool.not_eq_true', ← Bool.not_eq_true, Text.endsWith_iff,
    Text.endsWith_iff]

/-- A file is a module if its name is that of a rule source. -/
theorem moduleOf?_eq_some_iff (nonempty : below ≠ []) :
    moduleOf? settings root below = some found ↔
      ∃ names name, below = names ++ [(Path.ofText name).units] ∧
        (settings.ruleSuffix.toList <:+ name.toList ∧ ¬ settings.testSuffix.toList <:+ name.toList) ∧
        found = ⟨root, Path.ofComponents (below.map .name)⟩ := by
  have notRoot : below.isEmpty = false := List.isEmpty_eq_false_iff.2 nonempty
  rw [moduleOf?, moduleAt?_eq_some_iff, pathBelow, notRoot, if_neg (by simp)]
  constructor
  · rintro ⟨-, ⟨name, isText, isSource⟩, rfl⟩
    rcases List.eq_nil_or_concat below with none | ⟨names, last, whole⟩
    · contradiction
    · rw [List.concat_eq_append] at whole
      have isLast : Path.mk last = Path.ofText name := by
        rw [← Path.text?_eq_some_iff, ← isText, nameOf, whole, List.getLast?_concat, Option.getD_some]
      refine ⟨names, name, ?_, isRuleSource_iff.1 isSource, rfl⟩
      rw [whole, ← isLast]
  · rintro ⟨names, name, whole, isSource, rfl⟩
    refine ⟨rfl, ⟨name, ?_, isRuleSource_iff.2 isSource⟩, rfl⟩
    rw [Path.text?_eq_some_iff, nameOf, whole, List.getLast?_concat, Option.getD_some]

/-- The names of a module's path are those that lead to its file. -/
theorem names_of_moduleOf? (lawful : tree.Lawful) (there : (tree.at? (top ++ below)).isSome)
    (nonempty : below ≠ []) (isModule : moduleOf? settings root below = some found) :
    found.file.names = below := by
  obtain ⟨names, name, -, -, rfl⟩ := (moduleOf?_eq_some_iff nonempty).1 isModule
  exact names_ofComponents nonempty fun name mem =>
    lawful.isFileName there (List.mem_append_right _ mem)

/-- The modules below a root are those of the files that its walk visits. -/
theorem modulesBelow_eq {depth : Nat} (completes : Completes tree depth root [] top (tree.walk root)) :
    modulesBelow tree settings root = (tree.filesBelow depth top).filterMap (moduleOf? settings root) := by
  have filesOnly : moduleAt? settings root =
      fun visit => if visit.isFile then moduleAt? settings root visit else none := by
    funext visit
    unfold moduleAt?
    cases visit.isFile <;> rfl
  rw [modulesBelow, filesOnly, ← List.filterMap_filter, completes.files, List.filterMap_map]
  rfl

/-- The modules below a root that is walked through to the end are listed as they should be. -/
theorem listsModules_of_completes {depth : Nat} (lawful : tree.Lawful)
    (atRoot : tree.find true root = .ok (top, .directory)) (deep : tree.entries.length ≤ depth)
    (completes : Completes tree depth root [] top (tree.walk root)) :
    ListsModules tree settings root (modulesBelow tree settings root) := by
  have isFile {below : List FileName} (mem : below ∈ tree.filesBelow depth top) :
      below ≠ [] ∧ ∃ content, tree.at? (top ++ below) = some (.file content) := by
    obtain ⟨⟨content, there⟩, -⟩ := lawful.closed.mem_filesBelow_iff.1 mem
    refine ⟨?_, content, there⟩
    rintro rfl
    rw [List.append_nil, Tree.at?_of_find atRoot] at there
    simp at there
  rw [modulesBelow_eq completes]
  refine ⟨fun module mem => ?_, fun file => ?_, ?_⟩
  · obtain ⟨below, mem, isModule⟩ := List.mem_filterMap.1 mem
    obtain ⟨_, _, -, -, rfl⟩ := (moduleOf?_eq_some_iff (isFile mem).1).1 isModule
    rfl
  · rw [List.mem_filterMap]
    constructor
    · rintro ⟨below, mem, isModule⟩
      obtain ⟨nonempty, content, there⟩ := isFile mem
      obtain ⟨names, name, rfl, ⟨ruled, notTest⟩, same⟩ :=
        (moduleOf?_eq_some_iff nonempty).1 isModule
      exact ⟨top, names, name, content, atRoot, there, congrArg FoundModule.file same, ruled, notTest⟩
    · rintro ⟨other, names, name, content, leads, there, rfl, ruled, notTest⟩
      obtain ⟨rfl, -⟩ := Prod.mk.inj (Except.ok.inj (atRoot.symm.trans leads))
      refine ⟨names ++ [(Path.ofText name).units], ?_, ?_⟩
      · have short := lawful.closed.length_le (Option.isSome_iff_exists.2 ⟨_, there⟩)
        refine lawful.closed.mem_filesBelow_iff.2 ⟨⟨content, there⟩, ?_⟩
        rw [List.length_append] at short
        omega
      · exact (moduleOf?_eq_some_iff (by simp)).2 ⟨names, name, rfl, ⟨ruled, notTest⟩, rfl⟩
  · refine List.pairwise_filterMap.2 ((lawful.pairwise_filesBelow depth top).imp_of_mem ?_)
    intro a b memA memB less first isFirst second isSecond
    obtain ⟨nonemptyA, _, thereA⟩ := isFile memA
    obtain ⟨nonemptyB, _, thereB⟩ := isFile memB
    rw [names_of_moduleOf? lawful (by rw [thereA]; rfl) nonemptyA isFirst,
      names_of_moduleOf? lawful (by rw [thereB]; rfl) nonemptyB isSecond]
    exact less

/-- The walk from a root is deep enough for all that lies below it. -/
theorem length_le_wayBound (tree : Tree) : tree.entries.length ≤ tree.wayBound :=
  (Nat.le_add_right _ 2).trans (Nat.le_mul_self _)

/-- The walk from a root without links below it goes on to its end, unless it stops at a directory
whose path is too long. -/
theorem walk_completes_or_stops (lawful : tree.Lawful) (free : tree.isLinkFree = true)
    (atRoot : tree.find true root = .ok (top, .directory)) :
    CompletesOrStops tree tree.wayBound root [] top (tree.walk root) := by
  refine walkFrom_completes_or_stops lawful free (Tree.isDirectory_of_find atRoot) ?_
  rw [if_pos (Tree.fits_of_find atRoot), atRoot]

/-- A walk that completes meets no directory whose path is too long. -/
theorem directoriesFit_of_completes (lawful : tree.Lawful)
    (atRoot : tree.find true root = .ok (top, .directory))
    (completes : Completes tree tree.wayBound root [] top (tree.walk root)) :
    DirectoriesFit tree root := by
  intro other below leads isDirectory
  obtain ⟨rfl, -⟩ := Prod.mk.inj (Except.ok.inj (atRoot.symm.trans leads))
  refine completes.fits below ?_ isDirectory
  have short := lawful.closed.length_le (Tree.isSome_at?_of_isDirectory isDirectory)
  rw [List.length_append] at short
  have deep := length_le_wayBound tree
  omega

/-- What becomes of the walks from roots that are directories. -/
theorem exists_walk (lawful : tree.Lawful) (free : tree.isLinkFree = true)
    (directories : ∀ root ∈ roots, tree.holdsDirectory root = true) (mem : root ∈ roots) :
    ∃ top, tree.find true root = .ok (top, .directory) ∧
      CompletesOrStops tree tree.wayBound root [] top (tree.walk root) := by
  obtain ⟨top, atRoot⟩ := Tree.holdsDirectory_iff_find.1 (directories root mem)
  exact ⟨top, atRoot, walk_completes_or_stops lawful free atRoot⟩

theorem exists_listsModules (lawful : tree.Lawful) (free : tree.isLinkFree = true)
    (directories : ∀ root ∈ roots, tree.holdsDirectory root = true)
    (fit : ∀ root ∈ roots, DirectoriesFit tree root) :
    ∃ parts, modules tree settings roots = .ok parts.flatten ∧
      List.Forall₂ (ListsModules tree settings) roots parts := by
  have complete (root : Path) (mem : root ∈ roots) :
      ∃ top, tree.find true root = .ok (top, .directory) ∧
        Completes tree tree.wayBound root [] top (tree.walk root) := by
    obtain ⟨top, atRoot, completes | ⟨below, isDirectory, long, -⟩⟩ :=
      exists_walk lawful free directories mem
    · exact ⟨top, atRoot, completes⟩
    · exact absurd (fit root mem top below atRoot isDirectory) long
  refine ⟨roots.map (modulesBelow tree settings), modules_eq_ok_iff.2 ⟨fun root mem => ?_, ?_⟩, ?_⟩
  · obtain ⟨_, -, completes⟩ := complete root mem
    exact completes.stop
  · rw [List.flatMap_def]
  · rw [List.forall₂_map_right_iff, List.forall₂_same]
    intro root mem
    obtain ⟨top, atRoot, completes⟩ := complete root mem
    exact listsModules_of_completes lawful atRoot (length_le_wayBound tree) completes

theorem directoriesFit_of_modules (lawful : tree.Lawful) (free : tree.isLinkFree = true)
    (directories : ∀ root ∈ roots, tree.holdsDirectory root = true)
    (succeeds : modules tree settings roots = .ok all) :
    ∀ root ∈ roots, DirectoriesFit tree root := by
  intro root mem
  obtain ⟨top, atRoot, completes | ⟨below, -, -, stops⟩⟩ := exists_walk lawful free directories mem
  · exact directoriesFit_of_completes lawful atRoot completes
  · rw [(modules_eq_ok_iff.1 succeeds).1 root mem] at stops
    contradiction

/-- In a tree without links, and below roots that are directories, discovery finds just the rule sources,
each once, root by root and in ascending order, if all paths of directories can be used; and it fails at a
directory whose path is too long if there is one. -/
theorem modules_ascending (lawful : tree.Lawful) (free : tree.isLinkFree = true)
    (directories : ∀ root ∈ roots, tree.holdsDirectory root = true) :
    ((∀ root ∈ roots, DirectoriesFit tree root) →
      ∃ parts, modules tree settings roots = .ok parts.flatten ∧
        List.Forall₂ (ListsModules tree settings) roots parts) ∧
    ((¬ ∀ root ∈ roots, DirectoriesFit tree root) →
      ∃ root ∈ roots, ∃ top below, tree.find true root = .ok (top, .directory) ∧
        tree.isDirectory (top ++ below) = true ∧ ¬Fits (root.descend below) ∧
        modules tree settings roots =
          .error (stopFailure (.access (root.descend below) .nameTooLong))) := by
  refine ⟨exists_listsModules lawful free directories, fun unfit => ?_⟩
  cases result : modules tree settings roots with
  | ok all => exact absurd (directoriesFit_of_modules lawful free directories result) unfit
  | error failure =>
    obtain ⟨before, root, after, error, rfl, -, stop, rfl⟩ := modules_eq_error_iff.1 result
    have mem : root ∈ before ++ root :: after := by simp
    obtain ⟨top, atRoot, completes | ⟨below, isDirectory, long, stops⟩⟩ :=
      exists_walk lawful free directories mem
    · rw [completes.stop] at stop
      contradiction
    · refine ⟨root, mem, top, below, atRoot, isDirectory, long, ?_⟩
      rw [Option.some.inj (stop.symm.trans stops)]

end

/-! ### Samples -/

/-- All that is in the sample, and a part of it again. -/
def interleavedRoots : List Path :=
  [.ofText "repo", .ofText "repo/a/"]

theorem lawful_interleavedFiles : Tree.interleavedFiles.Lawful where
  closed := Tree.closed_of_entries (by decide +kernel)
  names := by decide +kernel
  distinct := by decide +kernel
  workingDirectory := by decide +kernel

theorem directoriesFit_interleavedFiles :
    ∀ root ∈ interleavedRoots, DirectoriesFit Tree.interleavedFiles root := by
  have short : ∀ root ∈ interleavedRoots, Fits root ∧
      ∀ entry ∈ Tree.interleavedFiles.entries, ∀ below ∈ entry.1.tails, Fits (root.descend below) := by
    decide +kernel
  intro root isRoot top below _ isDirectory
  by_cases none : top ++ below = []
  · rw [(List.append_eq_nil_iff.1 none).2]
    exact (short root isRoot).1
  · have isEntry := Tree.mem_entries_of_at? none (Tree.isDirectory_iff.1 isDirectory)
    exact (short root isRoot).2 _ isEntry below ((List.mem_tails _ _).2 (List.suffix_append top below))

theorem modules_ascending_sample :
    Tree.interleavedFiles.Lawful ∧ Tree.interleavedFiles.isLinkFree = true ∧
      (∀ root ∈ interleavedRoots, Tree.interleavedFiles.holdsDirectory root = true) ∧
      ∃ parts, modules Tree.interleavedFiles Settings.default.discovery interleavedRoots =
          .ok parts.flatten ∧
        List.Forall₂ (ListsModules Tree.interleavedFiles Settings.default.discovery) interleavedRoots
          parts := by
  have free : Tree.interleavedFiles.isLinkFree = true := by decide +kernel
  have directories : ∀ root ∈ interleavedRoots, Tree.interleavedFiles.holdsDirectory root = true := by
    decide +kernel
  exact ⟨lawful_interleavedFiles, free, directories,
    (modules_ascending lawful_interleavedFiles free directories).1 directoriesFit_interleavedFiles⟩

/-- A file below a directory below another one. -/
def nestedFiles : Tree where
  entries :=
    [(placeAt "repo", .directory),
      (placeAt "repo/sub", .directory),
      (placeAt "repo/sub/x.rego", .file (.text "package x\n"))]
  workingDirectory := []

theorem lawful_nestedFiles : nestedFiles.Lawful where
  closed := Tree.closed_of_entries (by decide +kernel)
  names := by decide +kernel
  distinct := by decide +kernel
  workingDirectory := by decide +kernel

theorem start_nestedFiles (path : Path) : nestedFiles.start path = [] := by
  unfold Tree.start
  split <;> rfl

/-- A path with steps in front that lead nowhere else. -/
def dotted (count : Nat) (path : Path) : Path :=
  ⟨(List.replicate count [.char '.', Path.separator]).flatten ++ path.units⟩

theorem units_dotted_succ (count : Nat) (path : Path) :
    (dotted (count + 1) path).units =
      Path.dot ++ Path.separator :: (dotted count path).units := by
  simp [dotted, List.replicate_succ, Path.dot]

theorem way_dotted (count : Nat) (path : Path) : (dotted count path).way = path.way := by
  induction count with
  | zero => rfl
  | succ count ih =>
    have segments : (dotted (count + 1) path).segments = Path.dot :: (dotted count path).segments := by
      rw [Path.segments, units_dotted_succ, List.splitOn_append_cons_self]
      rfl
    rw [Path.way, segments, List.filter_cons_of_neg (by decide)]
    exact ih

theorem length_bytes_dotted (count : Nat) (path : Path) :
    (FileName.bytes (dotted count path).units).length =
      2 * count + (FileName.bytes path.units).length := by
  induction count with
  | zero => rw [dotted]; simp
  | succ count ih =>
    have front : (FileName.bytes (Path.dot ++ [Path.separator])).length = 2 := by decide
    rw [units_dotted_succ, List.append_cons, FileName.bytes, List.flatMap_append, List.length_append]
    unfold FileName.bytes at front ih ⊢
    omega

theorem checkPath_dotted {count : Nat} {path : Path} (checked : checkPath path = .ok ())
    (fits : Fits (dotted count path)) : checkPath (dotted count path) = .ok () := by
  obtain ⟨noNul, nonempty, -⟩ := checkPath_eq_ok_iff.1 checked
  refine checkPath_eq_ok_iff.2 ⟨?_, ?_, fits⟩
  · simp [dotted, Path.separator, noNul]
  · simp only [Path.isEmpty, List.isEmpty_eq_false_iff] at nonempty ⊢
    exact List.append_ne_nil_of_right_ne_nil _ nonempty

/-- Steps that lead nowhere else do not change where a path leads. -/
theorem find_dotted {count : Nat} {path : Path} {goal : Place}
    (found : nestedFiles.find true path = .ok (goal, .directory)) (fits : Fits (dotted count path)) :
    nestedFiles.find true (dotted count path) = .ok (goal, .directory) := by
  obtain ⟨checked, reaches⟩ := Tree.find_directory_iff.1 found
  refine Tree.find_directory_iff.2 ⟨checkPath_dotted checked fits, ?_⟩
  rwa [Tree.Reaches, start_nestedFiles, way_dotted, ← start_nestedFiles path]

/-- A path of the first directory that leaves no room for the name of the second one. -/
def longRoot : Path :=
  dotted 2045 (.ofText "repo")

theorem length_bytes_longRoot : (FileName.bytes longRoot.units).length = 4094 := by
  rw [longRoot, length_bytes_dotted]
  decide

theorem find_longRoot : nestedFiles.find true longRoot = .ok (placeAt "repo", .directory) :=
  find_dotted (by decide +kernel) (length_bytes_longRoot.le.trans (by decide))

theorem length_bytes_join_ge {base path : Path} (relative : path.isAbsolute = false) :
    (FileName.bytes base.units).length + (FileName.bytes path.units).length ≤
      (FileName.bytes (base.join path).units).length := by
  rw [Path.units_join relative]
  unfold FileName.bytes Path.opened
  rw [List.flatMap_append, List.length_append]
  split
  · exact Nat.le_refl _
  · rw [List.flatMap_append, List.length_append]
    omega

theorem not_fits_sub : ¬Fits (longRoot.descend (placeAt "sub")) := by
  have sub : placeAt "sub" = [(Path.ofText "sub").units] := by decide +kernel
  have short : (FileName.bytes (Path.ofText "sub").units).length = 3 := by decide
  have long : (FileName.bytes longRoot.units).length + (FileName.bytes (Path.ofText "sub").units).length ≤
      (FileName.bytes (longRoot.join (.ofText "sub")).units).length :=
    length_bytes_join_ge (by decide)
  rw [length_bytes_longRoot, short] at long
  rw [sub, Path.descend_cons, Path.descend_nil, Fits, Nat.not_le]
  exact Nat.lt_of_lt_of_le (by decide) long

/-- Nothing is found where the path of a directory becomes too long. -/
theorem not_every_module_found :
    ¬ ∀ (tree : Tree) (settings : DiscoverySettings) (roots : List Path),
      tree.Lawful → tree.isLinkFree = true →
      (∀ entry ∈ tree.entries, ∀ name ∈ entry.1, (Path.text? ⟨name⟩).isSome = true) →
      (∀ root ∈ roots, tree.holdsDirectory root = true) →
      ∃ parts, modules tree settings roots = .ok parts.flatten ∧
        List.Forall₂ (ListsModules tree settings) roots parts := by
  intro claimed
  have free : nestedFiles.isLinkFree = true := by decide +kernel
  have directories : ∀ root ∈ [longRoot], nestedFiles.holdsDirectory root = true :=
    List.forall_mem_singleton.2 (Tree.holdsDirectory_iff_find.2 ⟨_, find_longRoot⟩)
  obtain ⟨parts, succeeds, -⟩ := claimed nestedFiles Settings.default.discovery [longRoot]
    lawful_nestedFiles free (by decide +kernel) directories
  have fit := directoriesFit_of_modules lawful_nestedFiles free directories succeeds
  exact not_fits_sub
    (fit longRoot List.mem_cons_self _ (placeAt "sub") find_longRoot (by decide +kernel))

end PolicyPages.Discovery
