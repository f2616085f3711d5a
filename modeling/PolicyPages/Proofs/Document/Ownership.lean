import Mathlib.Data.List.Perm.Basic
import PolicyPages.Document.Assembly
import PolicyPages.Proofs.Document.Openings
import PolicyPages.Proofs.StableSort

/-!
# Who owns a rule

What the document of a topic shows, said of the annotations of its modules alone. A rule belongs to
the last package annotated before it in its module. A rule before any of them belongs to its own
path, if a module before annotates the package of that path; else to none (`owner?`). `placements`
goes through all rules, each with the path of its owner.

`build_shows` is that the document shows the sections of `openings` and no others, each with the
rules that are placed there and no others, stably sorted by title. The assembly is followed step by
step: `Assembled` is what holds between any two annotations.
-/

namespace PolicyPages

open Annotation (isDocumentedRule isPackage opensCollection opensSection packagePath)

/-! ### Owners -/

/-- The path of the owner of a rule, from the annotations of the modules before its own and those
before it in its module. -/
def owner? (before earlier : List Annotation) (rule : Annotation) : Option String :=
  match (earlier.filter opensSection).getLast? with
  | some package => some package.packagePath
  | none => if rule.packagePath ∈ openPaths before then some rule.packagePath else none

/-- The rules that are left of a module, each with the path of its owner. -/
def placementsFrom (before : List Annotation) :
    (earlier : List Annotation) → List Annotation → List (Option String × Annotation)
  | _, [] => []
  | earlier, note :: rest =>
    if note.isDocumentedRule then
      (owner? before earlier note, note) :: placementsFrom before (earlier ++ [note]) rest
    else placementsFrom before (earlier ++ [note]) rest

/-- The rules of modules, each with the path of its owner. -/
def placements : (before : List Annotation) → List (List Annotation) →
    List (Option String × Annotation)
  | _, [] => []
  | before, notes :: rest => placementsFrom before [] notes ++ placements (before ++ notes) rest

/-- The rules that are placed under a path. -/
def rulesUnder (placed : List (Option String × Annotation)) (path : String) : List Annotation :=
  (placed.filter (·.1 = some path)).map Prod.snd

/-- The annotations of a topic, module by module. -/
def Topic.notesOf (topic : Topic) (modules : List AnnotatedModule) : List (List Annotation) :=
  (modules.filter fun module => topic.contains module.file).map AnnotatedModule.annotations

namespace Section

def path (part : Section) : String :=
  part.package.packagePath

/-- The rules of a section, each with its path. -/
def placed (part : Section) : List (Option String × Annotation) :=
  part.rules.map fun rule => (some part.path, rule)

end Section

/-- The document shows the annotations of modules: sections and collections, sorted by title. -/
structure Document.Shows (document : Document) (modules : List (List Annotation)) : Prop where
  /-- The sections are those of the first annotation of each path. -/
  packages : StablySorted Annotation.title (openings modules.flatten)
    (document.packages.map Section.package)
  onePerPath : (document.packages.map Section.path).Nodup
  /-- A section has the rules that are placed under its path. -/
  rules : ∀ part ∈ document.packages,
    StablySorted Annotation.title (rulesUnder (placements [] modules) part.path) part.rules
  /-- Every rule that has an owner is in one section, as often as it occurs. -/
  partition : (document.packages.flatMap Section.placed).Perm
    ((placements [] modules).filter (·.1.isSome))
  occurrences : (placements [] modules).map Prod.snd =
    modules.flatten.filter isDocumentedRule
  collections : StablySorted Annotation.title (modules.flatten.filter opensCollection)
    (document.collections.map Listing.collection)

/-! ### Placements -/

theorem map_snd_placementsFrom (before earlier notes : List Annotation) :
    (placementsFrom before earlier notes).map Prod.snd =
      notes.filter isDocumentedRule := by
  induction notes generalizing earlier with
  | nil => rfl
  | cons note rest ih =>
    cases documented : note.isDocumentedRule <;> simp [placementsFrom, documented, ih]

theorem map_snd_placements (before : List Annotation) (modules : List (List Annotation)) :
    (placements before modules).map Prod.snd =
      modules.flatten.filter isDocumentedRule := by
  induction modules generalizing before with
  | nil => rfl
  | cons notes rest ih =>
    rw [placements, List.map_append, map_snd_placementsFrom, ih, List.flatten_cons,
      List.filter_append]

theorem placements_filter_not_isEmpty (before : List Annotation)
    (modules : List (List Annotation)) :
    placements before (modules.filter (!·.isEmpty)) = placements before modules := by
  induction modules generalizing before with
  | nil => rfl
  | cons notes rest ih =>
    cases notes with
    | nil => simpa [placements, placementsFrom] using ih before
    | cons note others => simpa [placements] using ih _

/-! ### Assembly -/

/-- What holds after some annotations, of which the rules have been placed. -/
structure Assembled (notes : List Annotation) (placed : List (Option String × Annotation))
    (assembly : Assembly) : Prop where
  sections : assembly.sections = (openings notes).map fun package =>
    (package.packagePath, ⟨package, rulesUnder placed package.packagePath⟩)
  owned : ∀ entry ∈ placed, ∀ path ∈ entry.1, path ∈ openPaths notes
  collections : assembly.collections = notes.filter opensCollection

/-- What holds besides within a module, of which some annotations have been met. -/
structure AssembledWithin (before earlier : List Annotation)
    (placed : List (Option String × Annotation)) (assembly : Assembly) : Prop extends
    Assembled (before ++ earlier) placed assembly where
  current : assembly.current =
    ((earlier.filter opensSection).getLast?).map packagePath

theorem rulesUnder_concat (placed : List (Option String × Annotation)) (owner : Option String)
    (rule : Annotation) (path : String) :
    rulesUnder (placed ++ [(owner, rule)]) path =
      rulesUnder placed path ++ if owner = some path then [rule] else [] := by
  by_cases same : owner = some path <;> simp [rulesUnder, same]

theorem rulesUnder_eq_nil {placed : List (Option String × Annotation)} {path : String}
    (unknown : ∀ entry ∈ placed, entry.1 ≠ some path) : rulesUnder placed path = [] := by
  rw [rulesUnder, List.map_eq_nil_iff, List.filter_eq_nil_iff]
  intro entry mem
  simpa using unknown entry mem

namespace Assembled

variable {notes : List Annotation} {placed : List (Option String × Annotation)}
  {assembly : Assembly} {note : Annotation} {path : String}

theorem empty : Assembled [] [] .empty :=
  ⟨rfl, by simp, rfl⟩

theorem isOpen_iff (h : Assembled notes placed assembly) (path : String) :
    assembly.isOpen path = true ↔ path ∈ openPaths notes := by
  rw [Assembly.isOpen, h.sections, ← map_packagePath_openings]
  simp

/-- An annotation that opens no section adds to the collections at most. -/
theorem of_not_opens (h : Assembled notes placed assembly) (other : note.opensSection = false)
    {next : Assembly} (sections : next.sections = assembly.sections)
    (collections : next.collections = assembly.collections ++
      if note.opensCollection then [note] else []) :
    Assembled (notes ++ [note]) placed next := by
  obtain ⟨paths, same⟩ := @openings_concat_of_not_opens notes note other
  refine ⟨?_, ?_, ?_⟩
  · rw [sections, h.sections, same]
  · rw [paths]
    exact h.owned
  · rw [collections, h.collections, List.filter_append, List.filter_singleton, cond_eq_ite]

theorem openSection (h : Assembled notes placed assembly) (opens : note.opensSection = true) :
    Assembled (notes ++ [note]) placed (assembly.openSection note) := by
  have noCollection : note.opensCollection = false := by
    simp_all [opensSection, opensCollection]
  have collections :
      assembly.collections = (notes ++ [note]).filter opensCollection := by
    rw [h.collections, List.filter_append, List.filter_singleton, noCollection, cond_false,
      List.append_nil]
  by_cases known : note.packagePath ∈ openPaths notes
  · have isOpen := (h.isOpen_iff _).2 known
    have step : assembly.openSection note = { assembly with current := some note.packagePath } :=
      if_pos isOpen
    rw [step]
    refine ⟨?_, ?_, collections⟩
    · rw [openings_concat_of_known opens known]
      exact h.sections
    · rw [openPaths_concat_of_opens opens, if_pos known]
      exact h.owned
  · have isClosed := mt (h.isOpen_iff _).1 known
    have step : assembly.openSection note = { assembly with
        sections := assembly.sections ++ [(note.packagePath, ⟨note, []⟩)]
        current := some note.packagePath } :=
      if_neg isClosed
    have unowned : rulesUnder placed note.packagePath = [] :=
      rulesUnder_eq_nil fun entry mem at' => known (h.owned entry mem _ at')
    rw [step]
    refine ⟨?_, ?_, collections⟩
    · rw [openings_concat_of_new opens known, List.map_append, ← h.sections, List.map_singleton,
        unowned]
    · rw [openPaths_concat_of_opens opens, if_neg known]
      intro entry mem path at'
      exact List.mem_append_left _ (h.owned entry mem path at')

theorem addRule (h : Assembled notes placed assembly) (known : path ∈ openPaths notes)
    (rule : Annotation) :
    Assembled notes (placed ++ [(some path, rule)]) (assembly.addRule path rule) := by
  refine ⟨?_, ?_, h.collections⟩
  · rw [Assembly.addRule, h.sections, List.map_map]
    apply List.map_congr_left
    intro package _
    rw [rulesUnder_concat]
    by_cases same : package.packagePath = path
    · simp [same]
    · simp [same, Ne.symm same]
  · refine List.forall_mem_append.2 ⟨h.owned, List.forall_mem_singleton.2 ?_⟩
    rintro _ ⟨⟩
    exact known

theorem skipRule (h : Assembled notes placed assembly) (rule : Annotation) :
    Assembled notes (placed ++ [(none, rule)]) assembly := by
  refine ⟨?_, ?_, h.collections⟩
  · rw [h.sections]
    apply List.map_congr_left
    intro package _
    rw [rulesUnder_concat, if_neg (by simp), List.append_nil]
  · refine List.forall_mem_append.2 ⟨h.owned, List.forall_mem_singleton.2 ?_⟩
    rintro _ ⟨⟩

end Assembled

namespace AssembledWithin

variable {before earlier : List Annotation} {placed : List (Option String × Annotation)}
  {assembly : Assembly} {note : Annotation}

theorem owner?_eq (h : AssembledWithin before earlier placed assembly) (rule : Annotation) :
    assembly.owner? rule = owner? before earlier rule := by
  rw [Assembly.owner?, h.current, owner?]
  cases last : (earlier.filter opensSection).getLast? with
  | some package => rfl
  | none =>
    have noneOpened := List.getLast?_eq_none_iff.1 last
    have paths : openPaths (before ++ earlier) = openPaths before := by
      rw [openPaths, List.filter_append, noneOpened, List.append_nil, openPaths]
    have isOpen := h.isOpen_iff rule.packagePath
    rw [paths] at isOpen
    show (if assembly.isOpen rule.packagePath then some rule.packagePath else none) = _
    by_cases known : rule.packagePath ∈ openPaths before
    · rw [if_pos (isOpen.2 known)]
      exact (if_pos known).symm
    · rw [if_neg (mt isOpen.1 known)]
      exact (if_neg known).symm

/-- The owner of a rule has a section. -/
theorem mem_openPaths_of_owner? {rule : Annotation} {path : String}
    (h : owner? before earlier rule = some path) : path ∈ openPaths (before ++ earlier) := by
  rw [openPaths, List.mem_eraseDups, List.filter_append, List.map_append, List.mem_append]
  unfold owner? at h
  split at h
  · rename_i package last
    obtain rfl := Option.some.inj h
    exact .inr (List.mem_map_of_mem (List.mem_of_getLast? last))
  · split at h
    · rename_i known
      obtain rfl := Option.some.inj h
      exact .inl (List.mem_eraseDups.1 known)
    · contradiction

/-- An annotation that opens no section leaves the owner of the next rules as it is. -/
theorem of_not_opens (h : AssembledWithin before earlier placed assembly)
    (other : note.opensSection = false) {placed' : List (Option String × Annotation)}
    {next : Assembly} (assembled : Assembled (before ++ earlier ++ [note]) placed' next)
    (current : next.current = assembly.current) :
    AssembledWithin before (earlier ++ [note]) placed' next := by
  rw [List.append_assoc] at assembled
  refine ⟨assembled, ?_⟩
  rw [current, h.current, filter_opensSection_concat, other]
  simp

theorem add_inCollection (h : AssembledWithin before earlier placed assembly) (file : Path)
    (collection : note.inCollectionModule = true) :
    AssembledWithin before (earlier ++ [note]) (placed ++ placementsFrom before earlier [note])
      (assembly.add file note) := by
  have other : note.opensSection = false := by simp [opensSection, collection]
  have unplaced : placementsFrom before earlier [note] = [] := by
    simp [placementsFrom, isDocumentedRule, collection]
  rw [unplaced, List.append_nil]
  refine h.of_not_opens other (h.toAssembled.of_not_opens other ?_ ?_) ?_
  all_goals cases scope : note.scope <;>
    simp [Assembly.add, opensCollection, isPackage, collection, scope]

theorem add_opening (h : AssembledWithin before earlier placed assembly) (file : Path)
    (collection : note.inCollectionModule = false) (scope : note.scope = .package) :
    AssembledWithin before (earlier ++ [note]) (placed ++ placementsFrom before earlier [note])
      (assembly.add file note) := by
  have opens : note.opensSection = true := by
    simp [opensSection, isPackage, collection, scope]
  have unplaced : placementsFrom before earlier [note] = [] := by
    simp [placementsFrom, isDocumentedRule, isPackage, scope]
  have step : assembly.add file note = assembly.openSection note := by
    simp [Assembly.add, collection, scope]
  have assembled := h.toAssembled.openSection opens
  rw [List.append_assoc] at assembled
  rw [unplaced, List.append_nil, step]
  refine ⟨assembled, ?_⟩
  rw [filter_opensSection_concat, opens, if_pos rfl, List.getLast?_concat]
  cases isOpen : assembly.isOpen note.location.packagePath <;>
    simp [Assembly.openSection, isOpen, packagePath]

theorem add_rule (h : AssembledWithin before earlier placed assembly) (file : Path)
    (collection : note.inCollectionModule = false) (scope : note.scope = .rule) :
    AssembledWithin before (earlier ++ [note]) (placed ++ placementsFrom before earlier [note])
      (assembly.add file note) := by
  have other : note.opensSection = false := by
    simp [opensSection, isPackage, scope]
  have noCollection : note.opensCollection = false := by
    simp [opensCollection, collection]
  have placedNext :
      placementsFrom before earlier [note] = [(owner? before earlier note, note)] := by
    simp [placementsFrom, isDocumentedRule, isPackage, collection, scope]
  rw [placedNext]
  cases owner : owner? before earlier note with
  | some path =>
    have step : assembly.add file note = assembly.addRule path note := by
      simp [Assembly.add, collection, scope, h.owner?_eq, owner]
    have assembled := h.toAssembled.addRule (mem_openPaths_of_owner? owner) note
    rw [step]
    exact h.of_not_opens other (assembled.of_not_opens other rfl (by simp [noCollection])) rfl
  | none =>
    have step : assembly.add file note =
        { assembly with events := assembly.events ++ [.ruleUnowned note.title file] } := by
      simp [Assembly.add, collection, scope, h.owner?_eq, owner]
    have assembled := h.toAssembled.skipRule note
    rw [step]
    exact h.of_not_opens other (assembled.of_not_opens other rfl (by simp [noCollection])) rfl

/-- One annotation is taken. -/
theorem add (h : AssembledWithin before earlier placed assembly) (file : Path)
    (note : Annotation) :
    AssembledWithin before (earlier ++ [note]) (placed ++ placementsFrom before earlier [note])
      (assembly.add file note) := by
  cases collection : note.inCollectionModule with
  | true => exact h.add_inCollection file collection
  | false =>
    cases scope : note.scope with
    | package => exact h.add_opening file collection scope
    | rule => exact h.add_rule file collection scope

/-- The rest of a module is taken. -/
theorem foldl_add (h : AssembledWithin before earlier placed assembly) (file : Path)
    (notes : List Annotation) :
    AssembledWithin before (earlier ++ notes) (placed ++ placementsFrom before earlier notes)
      (notes.foldl (Assembly.add file) assembly) := by
  induction notes generalizing earlier placed assembly with
  | nil => simpa [placementsFrom] using h
  | cons note rest ih =>
    have cut : placementsFrom before earlier (note :: rest) =
        placementsFrom before earlier [note] ++
          placementsFrom before (earlier ++ [note]) rest := by
      cases documented : note.isDocumentedRule <;> simp [placementsFrom, documented]
    have later := ih (h.add file note)
    rw [List.append_assoc, List.append_assoc, ← cut] at later
    exact later

end AssembledWithin

namespace Assembled

variable {notes : List Annotation} {placed : List (Option String × Annotation)}
  {assembly : Assembly}

theorem addModule (h : Assembled notes placed assembly) (module : AnnotatedModule) :
    Assembled (notes ++ module.annotations)
      (placed ++ placementsFrom notes [] module.annotations) (assembly.addModule module) := by
  have start : AssembledWithin notes [] placed { assembly with current := none } := by
    refine ⟨⟨?_, ?_, ?_⟩, rfl⟩
    all_goals rw [List.append_nil]
    · exact h.sections
    · exact h.owned
    · exact h.collections
  exact (start.foldl_add module.file module.annotations).toAssembled

theorem foldl_addModule (h : Assembled notes placed assembly) (modules : List AnnotatedModule) :
    Assembled (notes ++ (modules.map AnnotatedModule.annotations).flatten)
      (placed ++ placements notes (modules.map AnnotatedModule.annotations))
      (modules.foldl Assembly.addModule assembly) := by
  induction modules generalizing notes placed assembly with
  | nil => simpa [placements] using h
  | cons module rest ih =>
    have later := ih (h.addModule module)
    rw [List.append_assoc, List.append_assoc] at later
    exact later

theorem ofTopic (registry : Registry) (topic : Topic) :
    Assembled (topic.notesOf registry.modules).flatten
      (placements [] (topic.notesOf registry.modules)) (.ofTopic registry topic) :=
  empty.foldl_addModule _

/-- A registry leaves out modules without annotations, which add nothing. -/
theorem ofModules (modules : List AnnotatedModule) (topic : Topic) :
    Assembled (topic.notesOf modules).flatten (placements [] (topic.notesOf modules))
      (.ofTopic (.ofModules modules) topic) := by
  have kept : topic.notesOf (Registry.ofModules modules).modules =
      (topic.notesOf modules).filter (!·.isEmpty) := by
    rw [Registry.modules_ofModules, Topic.notesOf, Topic.notesOf, List.filter_map,
      List.filter_filter, List.filter_filter]
    refine congrArg _ (List.filter_congr fun module _ => ?_)
    exact Bool.and_comm _ _
  have assembled := ofTopic (.ofModules modules) topic
  rwa [kept, List.flatten_filter_not_isEmpty, placements_filter_not_isEmpty] at assembled

end Assembled

/-! ### The document -/

section

variable {notes : List Annotation} {placed : List (Option String × Annotation)}
  {assembly : Assembly}

/-- The sections of an assembly, each with its rules in order. -/
def Assembly.parts (assembly : Assembly) : List Section :=
  assembly.sections.map fun entry => entry.2.sorted

theorem Assembled.mem_parts (h : Assembled notes placed assembly) {part : Section}
    (mem : part ∈ assembly.parts) :
    part.rules = (rulesUnder placed part.path).mergeSort fun a b => a.title ≤ b.title := by
  rw [Assembly.parts, h.sections, List.map_map] at mem
  obtain ⟨package, _, rfl⟩ := List.mem_map.1 mem
  rfl

theorem Assembled.map_package_parts (h : Assembled notes placed assembly) :
    assembly.parts.map Section.package = openings notes := by
  rw [Assembly.parts, h.sections, List.map_map, List.map_map]
  exact List.map_id' _

theorem Assembled.map_path_parts (h : Assembled notes placed assembly) :
    assembly.parts.map Section.path = openPaths notes := by
  rw [← map_packagePath_openings, ← h.map_package_parts, List.map_map]
  rfl

theorem placed_perm {part : Section}
    (h : part.rules.Perm (rulesUnder placed part.path)) :
    part.placed.Perm (placed.filter (·.1 = some part.path)) := by
  refine (h.map _).trans (.of_eq ?_)
  rw [rulesUnder, List.map_map]
  refine (List.map_congr_left fun entry mem => ?_).trans (List.map_id' _)
  have under : entry.1 = some part.path := by simpa using (List.mem_filter.1 mem).2
  exact Prod.ext under.symm rfl

/-- The rules that have an owner are shared out among the sections. -/
theorem Assembled.flatMap_placed_perm (h : Assembled notes placed assembly) :
    (assembly.parts.flatMap Section.placed).Perm (placed.filter (·.1.isSome)) := by
  have each : ∀ part ∈ assembly.parts,
      part.placed.Perm (placed.filter (·.1 = some part.path)) := by
    intro part mem
    refine placed_perm ?_
    rw [h.mem_parts mem]
    exact List.mergeSort_perm _ _
  have byPath : (assembly.parts.flatMap fun part => placed.filter (·.1 = some part.path)) =
      (openPaths notes).flatMap fun path => placed.filter (·.1 = some path) := by
    rw [← h.map_path_parts, List.flatMap_map]
  refine (List.Perm.flatMap_left _ each).trans ?_
  rw [byPath]
  exact flatMap_filter_perm (nodup_eraseDups _) h.owned

end

/-- The document of a topic shows the annotations of its modules, whatever these are. -/
theorem build_shows (modules : List AnnotatedModule) (membership : Membership) (topic : Topic) :
    (Document.build (.ofModules modules) membership topic).Shows (topic.notesOf modules) := by
  let assembly := Assembly.ofTopic (.ofModules modules) topic
  have assembled : Assembled _ _ assembly := Assembled.ofModules modules topic
  have sorted : StablySorted (fun part : Section => part.package.title) assembly.parts
      (Document.build (.ofModules modules) membership topic).packages :=
    stablySorted_title _ _
  constructor
  case packages =>
    rw [← assembled.map_package_parts]
    exact StablySorted.map sorted
  case onePerPath =>
    rw [(sorted.perm.map Section.path).nodup_iff, assembled.map_path_parts]
    exact nodup_eraseDups _
  case rules =>
    intro part mem
    rw [assembled.mem_parts (sorted.perm.mem_iff.1 mem)]
    exact stablySorted_title _ _
  case partition =>
    exact (sorted.perm.flatMap_right _).trans assembled.flatMap_placed_perm
  case occurrences => exact map_snd_placements _ _
  case collections =>
    let listings := assembly.collections.map fun note =>
      (⟨note, membership.members note.title⟩ : Listing)
    have listed : StablySorted (fun found : Listing => found.collection.title) listings
        (Document.build (.ofModules modules) membership topic).collections :=
      stablySorted_title _ _
    have whole : listings.map Listing.collection =
        (topic.notesOf modules).flatten.filter opensCollection := by
      rw [← assembled.collections, List.map_map]
      exact List.map_id' _
    rw [← whole]
    exact StablySorted.map listed

end PolicyPages
