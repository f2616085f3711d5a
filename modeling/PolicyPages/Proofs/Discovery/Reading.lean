import PolicyPages.Proofs.Discovery
import PolicyPages.Proofs.Files.Walk
import PolicyPages.Registry.Loading

/-!
# The modules that are found are the files that are read

Below a root that is a directory, the path of every module that discovery finds is the path by which
the walk visited its file; so loading reads that file, and is never told that nothing is there or that a
directory is none (`load_reads_visited`). A root that is a file itself goes by its name below
itself, and nothing is read there (`not_every_module_read`).
-/

namespace PolicyPages

open Files

/-- What reading a file gives. -/
def Files.Content.asText : Content → Except Error String
  | .text written => .ok written
  | .binary _ => .error .notText

namespace Discovery

section

variable {tree : Tree} {settings : DiscoverySettings} {root path : Path} {roots : List Path}
  {visit : Visit} {found : FoundModule} {all : List FoundModule} {place : Place} {content : Content}
  {names : List FileName}

theorem read_of_find (leads : tree.find true path = .ok (place, .file content)) :
    tree.read path = content.asText := by
  unfold Tree.read
  rw [leads]
  cases content <;> rfl

theorem read_of_find_error {error : Error} (fails : tree.find true path = .error error) :
    tree.read path = .error error := by
  unfold Tree.read
  rw [fails]
  rfl

/-- Every module that is found is a file that the walk from its root visits. -/
theorem exists_visit (succeeds : modules tree settings roots = .ok all) (mem : found ∈ all) :
    found.root ∈ roots ∧ ∃ visit ∈ (tree.walk found.root).visits, visit.isFile = true ∧
      found.file = pathBelow visit := by
  obtain ⟨-, rfl⟩ := modules_eq_ok_iff.1 succeeds
  obtain ⟨root, isRoot, mem⟩ := List.mem_flatMap.1 mem
  obtain ⟨visit, visited, isModule⟩ := List.mem_filterMap.1 mem
  obtain ⟨isFile, -, rfl⟩ := moduleAt?_eq_some_iff.1 isModule
  exact ⟨isRoot, visit, visited, isFile, rfl⟩

theorem exists_seesFile_walk (lawful : tree.Lawful) (visited : visit ∈ (tree.walk root).visits)
    (isFile : visit.isFile = true) : ∃ place content, SeesFile tree root visit place content :=
  exists_seesFile lawful (Path.descend_nil root).symm (fun _ _ leads => .root leads) visit visited
    isFile

/-- Below a directory, a path that is put together from the root and the names is that of the visit. -/
theorem join_pathBelow (lawful : tree.Lawful) (sees : SeesFile tree root visit place content)
    (below : visit.names ≠ []) : root.join (pathBelow visit) = visit.path := by
  rw [pathBelow, List.isEmpty_eq_false_iff.2 below, if_neg (by simp),
    join_ofComponents root below (sees.leads.isFileName lawful), sees.path]

/-- A root that holds a directory is none of the files that are visited. -/
theorem names_ne_nil (isDirectory : tree.holdsDirectory root = true)
    (sees : SeesFile tree root visit place content) : visit.names ≠ [] := by
  intro none
  obtain ⟨top, atTop⟩ := Tree.holdsDirectory_iff_find.1 isDirectory
  obtain ⟨node, found⟩ := leadsBelow_nil_iff.1 (none ▸ sees.leads)
  obtain ⟨rfl, rfl⟩ := Prod.mk.inj (Except.ok.inj (atTop.symm.trans found))
  have there := (Tree.at?_of_find found).symm.trans sees.there
  simp at there

/-- A module that was found is the file at a place: the walk from its root has visited it by the path of
the module, and reading this path gives the text of the file, which is what is parsed. -/
structure ReadsFile (tree : Tree) (found : FoundModule) (names : List FileName) (place : Place)
    (content : Content) : Prop where
  below : names ≠ []
  visited : ⟨found.path, names, true⟩ ∈ (tree.walk found.root).visits
  leads : LeadsBelow tree found.root names place
  there : tree.at? place = some (.file content)
  read : tree.read found.path = if Fits found.path then content.asText else .error .nameTooLong
  parsed : ∀ module, found.load tree = .ok module →
    ∃ text, content = .text text ∧ Source.annotations found.file text = .ok module.annotations

theorem load_eq_ok {module : AnnotatedModule} (loaded : found.load tree = .ok module) :
    ∃ text, tree.read found.path = .ok text ∧
      Source.annotations found.file text = .ok module.annotations := by
  unfold FoundModule.load at loaded
  split at loaded
  · contradiction
  · rename_i text read
    split at loaded
    · contradiction
    · rename_i annotations extracted
      exact ⟨text, read, by rw [extracted, ← Except.ok.inj loaded]⟩

/-- A module below a directory is read where the walk has visited it. -/
theorem exists_readsFile (lawful : tree.Lawful) (succeeds : modules tree settings roots = .ok all)
    (mem : found ∈ all) (isDirectory : tree.holdsDirectory found.root = true) :
    ∃ names place content, ReadsFile tree found names place content := by
  obtain ⟨-, visit, visited, isFile, file⟩ := exists_visit succeeds mem
  obtain ⟨place, content, sees⟩ := exists_seesFile_walk lawful visited isFile
  have below := names_ne_nil isDirectory sees
  have path : found.path = visit.path := by
    rw [FoundModule.path, file, join_pathBelow lawful sees below]
  have read : tree.read found.path =
      if Fits found.path then content.asText else .error .nameTooLong := by
    have find := sees.find
    rw [← path] at find
    by_cases fits : Fits found.path
    · rw [if_pos fits] at find ⊢
      exact read_of_find find
    · rw [if_neg fits] at find ⊢
      exact read_of_find_error find
  refine ⟨visit.names, place, content, below, ?_, sees.leads, sees.there, read, ?_⟩
  · rw [path, ← isFile]
    exact visited
  · intro module loaded
    obtain ⟨text, isText, extracted⟩ := load_eq_ok loaded
    rw [read] at isText
    split at isText
    · cases content with
      | text written => exact ⟨text, congrArg _ (Except.ok.inj isText), extracted⟩
      | binary bytes => contradiction
    · contradiction

/-- A root that is a file itself is looked for below itself. -/
theorem read_of_holdsFile (lawful : tree.Lawful) (succeeds : modules tree settings roots = .ok all)
    (mem : found ∈ all) (isFile : tree.holdsFile found.root = true) :
    tree.read found.path = .error (if Fits found.path then .notDirectory else .nameTooLong) := by
  obtain ⟨-, visit, visited, -, file⟩ := exists_visit succeeds mem
  obtain ⟨place, content, atRoot⟩ := Tree.holdsFile_iff_find.1 isFile
  have isRoot : visit = ⟨found.root, [], true⟩ := by
    rcases of_mem_visits_walkFrom visited with ⟨_, _, -, same⟩ | ⟨_, directory, -⟩
    · exact same
    · rw [atRoot] at directory
      simp at directory
  have path : found.path = found.root.join ⟨found.root.fileName⟩ := by
    rw [FoundModule.path, file, isRoot]
    rfl
  rw [path]
  exact read_of_find_error (Tree.find_join_fileName lawful atRoot)

/-! ### Loading -/

/-- Modules are added up to the first that cannot be loaded. -/
theorem exists_mem_of_addFound_eq_error {registry : Registry} {failure : Failure}
    (fails : Registry.addFound tree registry all = .error failure) :
    ∃ found ∈ all, found.load tree = .error failure := by
  induction all generalizing registry with
  | nil => contradiction
  | cons found rest ih =>
    rcases bind_eq_error_iff.1 fails with first | ⟨module, -, later⟩
    · exact ⟨found, List.mem_cons_self, first⟩
    · obtain ⟨other, mem, same⟩ := ih later
      exact ⟨other, List.mem_cons_of_mem _ mem, same⟩

theorem read_of_load_eq_error {error : Error}
    (fails : found.load tree = .error (.discovery path (.file error))) :
    tree.read found.path = .error error := by
  unfold FoundModule.load at fails
  split at fails
  · rename_i fault read
    rw [read]
    simp only [Except.error.injEq, Failure.discovery.injEq, ReadFault.file.injEq] at fails
    rw [fails.2]
  · split at fails
    · simp at fails
    · contradiction

/-- A file below a directory may be no text, and its path too long, but it is there. -/
theorem error_of_readsFile {error : Error} (reads : ReadsFile tree found names place content)
    (fails : tree.read found.path = .error error) : error = .notText ∨ error = .nameTooLong := by
  rw [reads.read] at fails
  split at fails
  · cases content with
    | text written => contradiction
    | binary bytes => exact .inl (Except.error.inj fails).symm
  · exact .inr (Except.error.inj fails).symm

/-- Below roots that are directories, every module that is found is read where the walk has visited its
file, so no file is missing when it is loaded. Below a root that is a file itself nothing is read. -/
theorem load_reads_visited (lawful : tree.Lawful)
    (succeeds : modules tree settings roots = .ok all) :
    (∀ found ∈ all, tree.holdsDirectory found.root = true →
      ∃ names place content, ReadsFile tree found names place content) ∧
    (∀ found ∈ all, tree.holdsFile found.root = true →
      tree.read found.path = .error (if Fits found.path then .notDirectory else .nameTooLong)) ∧
    ((∀ root ∈ roots, tree.holdsDirectory root = true) → ∀ path error,
      Registry.load tree settings roots = .error (.discovery path (.file error)) →
        error = .notText ∨ error = .nameTooLong) := by
  refine ⟨fun found mem => exists_readsFile lawful succeeds mem,
    fun found mem => read_of_holdsFile lawful succeeds mem, fun directories path error fails => ?_⟩
  have added : Registry.addFound tree .empty all = .error (.discovery path (.file error)) := by
    rw [← fails, Registry.load, succeeds]
    rfl
  obtain ⟨found, mem, unread⟩ := exists_mem_of_addFound_eq_error added
  have isDirectory := directories _ (exists_visit succeeds mem).1
  obtain ⟨names, place, content, reads⟩ := exists_readsFile lawful succeeds mem isDirectory
  exact error_of_readsFile reads (read_of_load_eq_error unread)

end

/-! ### Samples -/

/-- A directory with a link to another one in it. -/
def linkedFiles : Tree where
  entries :=
    [(placeAt "repo", .directory),
      (placeAt "repo/a", .directory),
      (placeAt "repo/a/x.rego", .file (.text "package a.x\n")),
      (placeAt "repo/link", .link (.ofText "a")),
      (placeAt "repo/y.rego", .file (.binary [0xFF]))]
  workingDirectory := []

theorem lawful_linkedFiles : linkedFiles.Lawful where
  closed := Tree.closed_of_entries (by decide +kernel)
  names := by decide +kernel
  distinct := by decide +kernel
  workingDirectory := by decide +kernel

/-- A directory, and a file in it. -/
def sampleRoots : List Path :=
  [.ofText "repo", .ofText "repo/a/x.rego"]

/-- What is found below them: one file once by its name, once by the link, and once more as a root. -/
def linkedModules : List FoundModule :=
  [⟨.ofText "repo", .ofText "a/x.rego"⟩, ⟨.ofText "repo", .ofText "link/x.rego"⟩,
    ⟨.ofText "repo", .ofText "y.rego"⟩, ⟨.ofText "repo/a/x.rego", .ofText "x.rego"⟩]

/-- The walk through the directory. -/
def linkedWalk : Walk where
  visits :=
    [⟨.ofText "repo", [], false⟩,
      ⟨.ofText "repo/a", placeAt "a", false⟩,
      ⟨.ofText "repo/a/x.rego", placeAt "a/x.rego", true⟩,
      ⟨.ofText "repo/link", placeAt "link", false⟩,
      ⟨.ofText "repo/link/x.rego", placeAt "link/x.rego", true⟩,
      ⟨.ofText "repo/y.rego", placeAt "y.rego", true⟩]
  stop := none

theorem walk_linkedFiles : linkedFiles.walk (.ofText "repo") = linkedWalk := by
  have enters : entered linkedFiles [] (.ofText "repo") = .ok (placeAt "repo", .directory) := by
    decide +kernel
  have children : linkedFiles.children (placeAt "repo") =
      [(Path.ofText "a").units, (Path.ofText "link").units, (Path.ofText "y.rego").units] :=
    Tree.children_of_pairwise (by decide +kernel) (by decide +kernel)
  -- The names of the one directory with several of them are put in place first: sorting them does not
  -- evaluate.
  rw [Tree.walk, show linkedFiles.wayBound = 48 + 1 by decide +kernel, walkFrom_succ enters, children]
  decide +kernel

theorem modules_linkedFiles :
    modules linkedFiles Settings.default.discovery sampleRoots = .ok linkedModules := by
  refine toOption_eq_some_iff.1 ?_
  rw [sampleRoots, modules, walk_linkedFiles]
  decide +kernel

theorem load_reads_visited_sample :
    linkedFiles.Lawful ∧
      modules linkedFiles Settings.default.discovery sampleRoots = .ok linkedModules ∧
      (∃ names place content,
        ReadsFile linkedFiles ⟨.ofText "repo", .ofText "link/x.rego"⟩ names place content) ∧
      linkedFiles.read (.ofText "repo/a/x.rego/x.rego") = .error .notDirectory ∧
      ∀ path error,
        Registry.load linkedFiles Settings.default.discovery [.ofText "repo"] =
          .error (.discovery path (.file error)) → error = .notText ∨ error = .nameTooLong := by
  obtain ⟨below, atRoot, -⟩ := load_reads_visited lawful_linkedFiles modules_linkedFiles
  have directories : ∀ root ∈ [Path.ofText "repo"], linkedFiles.holdsDirectory root = true := by
    decide +kernel
  have inDirectory :
      modules linkedFiles Settings.default.discovery [.ofText "repo"] = .ok (linkedModules.take 3) := by
    rw [modules, walk_linkedFiles]
    rfl
  refine ⟨lawful_linkedFiles, modules_linkedFiles, ?_, ?_, ?_⟩
  · exact below _ (by decide +kernel) (by decide +kernel)
  · exact atRoot ⟨.ofText "repo/a/x.rego", .ofText "x.rego"⟩ (by decide +kernel) (by decide +kernel)
  · exact (load_reads_visited lawful_linkedFiles inDirectory).2.2 directories

/-- A root that is a file is found, but not read. -/
theorem not_every_module_read :
    ¬ ∀ (tree : Tree) (settings : DiscoverySettings) (roots : List Path) (all : List FoundModule),
      tree.Lawful →
      (∀ root ∈ roots, tree.holdsDirectory root = true ∨ tree.holdsFile root = true) →
      modules tree settings roots = .ok all →
      ∀ found ∈ all, tree.read found.path ≠ .error .notFound ∧
        tree.read found.path ≠ .error .notDirectory := by
  intro claimed
  have reads := claimed linkedFiles Settings.default.discovery [.ofText "repo/a/x.rego"]
    [⟨.ofText "repo/a/x.rego", .ofText "x.rego"⟩] lawful_linkedFiles (by decide +kernel)
    (toOption_eq_some_iff.1 (by decide +kernel)) _ List.mem_cons_self
  have lost : linkedFiles.read (.ofText "repo/a/x.rego/x.rego") = .error .notDirectory := by
    decide +kernel
  exact reads.2 lost

end Discovery

end PolicyPages
