import Mathlib.Data.List.Nodup
import PolicyPages.Proofs.Document.Members
import PolicyPages.Proofs.Document.Ownership
import PolicyPages.Proofs.Source.OnePackage
import PolicyPages.Proofs.Topic

/-!
# Nothing extracted is lost

Extraction gives headed lists: the annotation of a package, then rules of the same path. Of modules
with such annotations no rule is lost, whatever paths they share (`extracted_documented_once`): every
tagged rule finds its package, and every rule outside collections stands in the section of its own
path, in the document of the one topic that its module belongs to.

A headed list either opens a section before its first rule or is all of a collection. So the rules
that are placed are placed under their own path (`placements_headed`), and no rule comes up before
there is an owner for it (`Assembly.foldl_addModule_skipsNone`).
-/

namespace PolicyPages

open Annotation (isDocumentedRule isPackage_eq_false_iff isPackage_eq_true_iff opensSection
  packagePath)

/-! ### Headed lists -/

/-- No annotations, or that of a package and then those of rules with the same path. -/
def Headed (notes : List Annotation) : Prop :=
  notes = [] ∨ ∃ package rules, notes = package :: rules ∧ package.isPackage = true ∧
    ∀ rule ∈ rules, rule.isPackage = false ∧ rule.packagePath = package.packagePath

theorem AnnotatedModule.IsExtracted.headed {module : AnnotatedModule} (h : module.IsExtracted) :
    Headed module.annotations := by
  obtain ⟨segments, ofPackage⟩ := h.exists_ofPackage
  rcases ofPackage.grouped with none | ⟨package, rules, whole, scope, rulesScope⟩
  · exact .inl none
  · refine .inr ⟨package, rules, whole, isPackage_eq_true_iff.2 scope, fun rule mem => ⟨?_, ?_⟩⟩
    · exact isPackage_eq_false_iff.2 (rulesScope rule mem)
    · have inWhole : rule ∈ module.annotations := whole ▸ List.mem_cons_of_mem _ mem
      have first : package ∈ module.annotations := whole ▸ List.mem_cons_self
      rw [ofPackage.packagePath_eq inWhole, ofPackage.packagePath_eq first]

section

variable {package rule : Annotation} {notes rules before earlier : List Annotation}

/-- A headed list begins with a package of every path in it. -/
theorem Headed.exists_package (h : Headed notes) (mem : rule ∈ notes) :
    ∃ package ∈ notes, package.isPackage = true ∧ package.packagePath = rule.packagePath := by
  rcases h with rfl | ⟨package, rules, rfl, isPackage, below⟩
  · contradiction
  · refine ⟨package, List.mem_cons_self, isPackage, ?_⟩
    rcases List.mem_cons.1 mem with rfl | later
    · rfl
    · exact (below rule later).2.symm

theorem inCollectionModule_congr (same : rule.packagePath = package.packagePath) :
    rule.inCollectionModule = package.inCollectionModule :=
  congrArg isCollectionPath same

/-! ### Placements -/

/-- The documented rules of a list, each under its own path. -/
def ownPlacements (notes : List Annotation) : List (Option String × Annotation) :=
  (notes.filter isDocumentedRule).map fun rule => (some rule.packagePath, rule)

theorem ownPlacements_append (notes others : List Annotation) :
    ownPlacements (notes ++ others) = ownPlacements notes ++ ownPlacements others := by
  rw [ownPlacements, List.filter_append, List.map_append]
  rfl

theorem ownPlacements_flatMap {α : Type} (f : α → List Annotation) (xs : List α) :
    ownPlacements (xs.flatMap f) = xs.flatMap fun x => ownPlacements (f x) := by
  induction xs with
  | nil => rfl
  | cons x rest ih => rw [List.flatMap_cons, ownPlacements_append, ih, List.flatMap_cons]

/-- Rules below the one open section are placed there. -/
theorem placementsFrom_below (opened : earlier.filter opensSection = [package])
    (below : ∀ rule ∈ rules, rule.isPackage = false ∧ rule.packagePath = package.packagePath) :
    placementsFrom before earlier rules = ownPlacements rules := by
  induction rules generalizing earlier with
  | nil => rfl
  | cons rule rest ih =>
    obtain ⟨⟨isRule, samePath⟩, later⟩ := List.forall_mem_cons.1 below
    have stillOpened : (earlier ++ [rule]).filter opensSection = [package] := by
      rw [filter_opensSection_concat, opened]
      simp [opensSection, isRule]
    have owner : owner? before earlier rule = some rule.packagePath := by
      rw [owner?, opened, samePath]
      rfl
    rw [placementsFrom, ih stillOpened later, owner]
    cases documented : rule.isDocumentedRule with
    | true => simp [ownPlacements, documented]
    | false => simp [ownPlacements, documented]

/-- In a collection nothing is placed. -/
theorem placementsFrom_eq_nil (undocumented : rules.filter isDocumentedRule = []) :
    placementsFrom before earlier rules = [] := by
  have rulesPlaced := map_snd_placementsFrom before earlier rules
  rwa [undocumented, List.map_eq_nil_iff] at rulesPlaced

theorem placementsFrom_headed (h : Headed notes) :
    placementsFrom before [] notes = ownPlacements notes := by
  rcases h with rfl | ⟨package, rules, rfl, isPackage, below⟩
  · rfl
  · have noRule : package.isDocumentedRule = false := by simp [isDocumentedRule, isPackage]
    have own : ownPlacements (package :: rules) = ownPlacements rules := by
      simp [ownPlacements, noRule]
    have skipped : placementsFrom before [] (package :: rules) =
        placementsFrom before [package] rules := by
      simp [placementsFrom, noRule]
    rw [own, skipped]
    cases collection : package.inCollectionModule with
    | false =>
      refine placementsFrom_below ?_ below
      simp [opensSection, isPackage, collection]
    | true =>
      have undocumented : rules.filter isDocumentedRule = [] := by
        rw [List.filter_eq_nil_iff]
        intro rule mem
        have inCollection := inCollectionModule_congr (below rule mem).2
        simp [isDocumentedRule, inCollection, collection]
      rw [placementsFrom_eq_nil undocumented, ownPlacements, undocumented]
      rfl

/-- The rules of headed lists are placed under their own paths. -/
theorem placements_headed {modules : List (List Annotation)}
    (headed : ∀ notes ∈ modules, Headed notes) :
    placements before modules = ownPlacements modules.flatten := by
  induction modules generalizing before with
  | nil => rfl
  | cons notes rest ih =>
    obtain ⟨first, later⟩ := List.forall_mem_cons.1 headed
    rw [placements, placementsFrom_headed first, ih later, List.flatten_cons,
      ownPlacements_append]

end

/-! ### Assembly -/

namespace Assembly

/-- No rule has been left out for want of an owner. -/
def SkipsNone (assembly : Assembly) : Prop :=
  ∀ title file, .ruleUnowned title file ∉ assembly.events

variable {assembly : Assembly} {note package : Annotation} {notes rules : List Annotation}

theorem openSection_skipsNone (h : assembly.SkipsNone) :
    (assembly.openSection package).SkipsNone ∧ (assembly.openSection package).current ≠ none := by
  have events : (assembly.openSection package).events = assembly.events := by
    cases isOpen : assembly.isOpen package.location.packagePath <;> simp [openSection, isOpen]
  have current : (assembly.openSection package).current = some package.packagePath := by
    cases isOpen : assembly.isOpen package.location.packagePath <;>
      simp [openSection, isOpen, packagePath]
  refine ⟨fun title file mem => h title file ?_, by simp [current]⟩
  rwa [events] at mem

/-- A rule is not left out where a section is open for it, and it opens none itself. -/
theorem add_rule_skipsNone (h : assembly.SkipsNone) (file : Path) (isRule : note.scope = .rule)
    (owned : note.inCollectionModule = true ∨ assembly.current ≠ none) :
    (assembly.add file note).SkipsNone ∧ (assembly.add file note).current = assembly.current := by
  cases collection : note.inCollectionModule with
  | true =>
    have step : assembly.add file note =
        { assembly with events := assembly.events ++ [.ruleUndocumented note.title file] } := by
      simp [add, collection, isRule]
    rw [step]
    refine ⟨fun title other mem => ?_, rfl⟩
    rcases List.mem_append.1 mem with earlier | last
    · exact h title other earlier
    · simp at last
  | false =>
    have isOpen : assembly.current ≠ none := owned.resolve_left (by simp [collection])
    obtain ⟨path, current⟩ := Option.ne_none_iff_exists'.1 isOpen
    have step : assembly.add file note = assembly.addRule path note := by
      simp [add, owner?, collection, isRule, current]
    rw [step]
    exact ⟨h, rfl⟩

theorem foldl_add_rules_skipsNone (h : assembly.SkipsNone) (file : Path)
    (areRules : ∀ rule ∈ rules, rule.scope = .rule)
    (owned : ∀ rule ∈ rules, rule.inCollectionModule = true ∨ assembly.current ≠ none) :
    (rules.foldl (add file) assembly).SkipsNone := by
  induction rules generalizing assembly with
  | nil => exact h
  | cons rule rest ih =>
    obtain ⟨isRule, areRules⟩ := List.forall_mem_cons.1 areRules
    obtain ⟨ownedFirst, owned⟩ := List.forall_mem_cons.1 owned
    obtain ⟨skipsNone, current⟩ := add_rule_skipsNone h file isRule ownedFirst
    refine ih skipsNone areRules fun other mem => ?_
    rw [current]
    exact owned other mem

theorem addModule_skipsNone (h : assembly.SkipsNone) {module : AnnotatedModule}
    (headed : Headed module.annotations) : (assembly.addModule module).SkipsNone := by
  have start : SkipsNone { assembly with current := none } := h
  rw [addModule]
  rcases headed with none | ⟨package, rules, whole, isPackage, below⟩
  · rw [none]
    exact start
  · have scope : package.scope = .package := isPackage_eq_true_iff.1 isPackage
    have areRules : ∀ rule ∈ rules, rule.scope = .rule :=
      fun rule mem => isPackage_eq_false_iff.1 (below rule mem).1
    rw [whole, List.foldl_cons]
    cases collection : package.inCollectionModule with
    | true =>
      have listed : add module.file { assembly with current := none } package =
          { assembly with current := none, collections := assembly.collections ++ [package] } := by
        simp [add, collection, scope]
      have still : SkipsNone { assembly with
          current := none, collections := assembly.collections ++ [package] } := h
      rw [listed]
      refine foldl_add_rules_skipsNone still _ areRules fun rule mem => .inl ?_
      rw [inCollectionModule_congr (below rule mem).2, collection]
    | false =>
      have opened : add module.file { assembly with current := none } package =
          openSection { assembly with current := none } package := by
        simp [add, collection, scope]
      rw [opened]
      obtain ⟨skipsNone, isOpen⟩ := openSection_skipsNone start
      exact foldl_add_rules_skipsNone skipsNone _ areRules fun _ _ => .inr isOpen

theorem foldl_addModule_skipsNone (h : assembly.SkipsNone) {modules : List AnnotatedModule}
    (headed : ∀ module ∈ modules, Headed module.annotations) :
    (modules.foldl addModule assembly).SkipsNone := by
  induction modules generalizing assembly with
  | nil => exact h
  | cons module rest ih =>
    obtain ⟨first, later⟩ := List.forall_mem_cons.1 headed
    exact ih (addModule_skipsNone h first) later

end Assembly

/-! ### Documents -/

/-- The documents leave nothing out of the modules of their topics. -/
structure DocumentsComplete (modules : List AnnotatedModule) (documentOf : Topic → Document) :
    Prop where
  /-- No path has two sections. -/
  onePerPath : ∀ topic, ((documentOf topic).packages.map Section.path).Nodup
  /-- The sections of a topic hold the rules of its modules and no others, each under its own path and
  as often as it occurs. -/
  ownSections : ∀ topic, ((documentOf topic).packages.flatMap Section.placed).Perm
    (ownPlacements (topic.notesOf modules).flatten)
  /-- No module is in two topics. -/
  oneTopic : ∀ module ∈ modules, ∀ topic ∈ Topic.all, ∀ other ∈ Topic.all,
    topic.contains module.file = true → other.contains module.file = true → topic = other
  /-- All topics together hold every rule of their modules as often as it occurs. -/
  allTopics : (Topic.all.flatMap fun topic =>
      (documentOf topic).packages.flatMap Section.placed).Perm
    (ownPlacements ((modules.filter fun module => (Topic.of? module.file).isSome).flatMap
      AnnotatedModule.annotations))

section

variable {modules : List AnnotatedModule} {topic : Topic} {membership : Membership}

theorem packages_build_perm (registry : Registry) (membership : Membership) (topic : Topic) :
    (Document.build registry membership topic).packages.Perm
      (Assembly.ofTopic registry topic).parts :=
  List.mergeSort_perm _ _

theorem nodup_path_packages (modules : List AnnotatedModule) (membership : Membership)
    (topic : Topic) : ((Document.build (.ofModules modules) membership topic).packages.map
      Section.path).Nodup := by
  rw [((packages_build_perm _ membership topic).map Section.path).nodup_iff,
    (Assembled.ofModules modules topic).map_path_parts]
  exact nodup_eraseDups _

/-- The sections of a topic hold the rules of its modules under their own paths. -/
theorem placed_packages_perm (headed : ∀ module ∈ modules, Headed module.annotations) :
    ((Document.build (.ofModules modules) membership topic).packages.flatMap Section.placed).Perm
      (ownPlacements (topic.notesOf modules).flatten) := by
  have headedLists : ∀ notes ∈ topic.notesOf modules, Headed notes := by
    intro notes mem
    obtain ⟨module, inTopic, rfl⟩ := List.mem_map.1 mem
    exact headed module (List.mem_filter.1 inTopic).1
  have shared := (Assembled.ofModules modules topic).flatMap_placed_perm
  rw [placements_headed headedLists] at shared
  have allOwned : (ownPlacements (topic.notesOf modules).flatten).filter (·.1.isSome) =
      ownPlacements (topic.notesOf modules).flatten := by
    simp [ownPlacements, List.filter_map, Function.comp_def]
  rw [allOwned] at shared
  exact ((packages_build_perm _ membership topic).flatMap_right _).trans shared

/-- A documented rule of a topic has a section of its own path. -/
theorem exists_section (headed : ∀ module ∈ modules, Headed module.annotations)
    {module : AnnotatedModule} (mem : module ∈ modules)
    (inTopic : topic.contains module.file = true) {rule : Annotation}
    (memRule : rule ∈ module.annotations) (documented : rule.isDocumentedRule = true) :
    ∃ part ∈ (Document.build (.ofModules modules) membership topic).packages,
      part.path = rule.packagePath ∧ rule ∈ part.rules := by
  have inNotes : rule ∈ (topic.notesOf modules).flatten :=
    List.mem_flatten.2 ⟨_, List.mem_map_of_mem (List.mem_filter.2 ⟨mem, inTopic⟩), memRule⟩
  have own : (some rule.packagePath, rule) ∈ ownPlacements (topic.notesOf modules).flatten :=
    List.mem_map.2 ⟨rule, List.mem_filter.2 ⟨inNotes, documented⟩, rfl⟩
  rw [← (placed_packages_perm headed).mem_iff, List.mem_flatMap] at own
  obtain ⟨part, memPart, placed⟩ := own
  obtain ⟨other, inPart, same⟩ := List.mem_map.1 placed
  obtain ⟨samePath, rfl⟩ := Prod.mk.inj same
  exact ⟨part, memPart, Option.some.inj samePath, inPart⟩

/-- The modules of all topics are those that belong to some topic. -/
theorem flatMap_modules_perm (modules : List AnnotatedModule) :
    (Topic.all.flatMap fun topic => modules.filter fun module => topic.contains module.file).Perm
      (modules.filter fun module => (Topic.of? module.file).isSome) := by
  let assigned := modules.map fun module => (Topic.of? module.file, module)
  have known : ∀ entry ∈ assigned, ∀ topic ∈ entry.1, topic ∈ Topic.all := by
    intro entry mem topic found
    obtain ⟨module, _, rfl⟩ := List.mem_map.1 mem
    exact (Topic.contains_of_of? found).1
  have each : (Topic.all.flatMap fun topic =>
      (assigned.filter (·.1 = some topic)).map Prod.snd) =
        Topic.all.flatMap fun topic => modules.filter fun module => topic.contains module.file := by
    refine List.flatMap_congr fun topic mem => ?_
    rw [List.filter_map, List.map_map]
    refine (List.map_id' _).trans (List.filter_congr fun module _ => ?_)
    rw [Function.comp_apply, ← Bool.coe_iff_coe, decide_eq_true_iff, Topic.of?_eq_some_iff]
    exact and_iff_right mem
  have shared := (flatMap_filter_perm Topic.nodup_all known).map Prod.snd
  rw [List.map_flatMap, each] at shared
  refine shared.trans (.of_eq ?_)
  rw [List.filter_map, List.map_map]
  exact List.map_id' _

theorem unresolvedRules_headed (headed : ∀ module ∈ modules, Headed module.annotations) :
    unresolvedRules (modules.flatMap AnnotatedModule.annotations) = [] := by
  refine List.eq_nil_iff_forall_not_mem.2 fun rule unresolved => ?_
  obtain ⟨mem, _, _, unknown⟩ := mem_unresolvedRules_iff.1 unresolved
  obtain ⟨module, memModule, inModule⟩ := List.mem_flatMap.1 mem
  obtain ⟨package, inSame, found⟩ := (headed module memModule).exists_package inModule
  have isSome := isSome_firstPackage?_iff.2
    ⟨package, List.mem_flatMap.2 ⟨module, memModule, inSame⟩, found⟩
  rw [unknown] at isSome
  contradiction

theorem documents_complete (headed : ∀ module ∈ modules, Headed module.annotations)
    (membership : Membership) :
    DocumentsComplete modules (Document.build (.ofModules modules) membership) where
  onePerPath := nodup_path_packages modules membership
  ownSections _ := placed_packages_perm headed
  oneTopic _ _ _ mem _ mem' holds holds' := Topic.eq_of_contains mem mem' holds holds'
  allTopics := by
    have each : ∀ topic ∈ Topic.all,
        ((Document.build (.ofModules modules) membership topic).packages.flatMap
          Section.placed).Perm ((modules.filter fun module => topic.contains module.file).flatMap
            fun module => ownPlacements module.annotations) := by
      intro topic _
      rw [← ownPlacements_flatMap]
      exact placed_packages_perm headed
    refine (List.Perm.flatMap_left _ each).trans ?_
    rw [← List.flatMap_assoc, ownPlacements_flatMap]
    exact (flatMap_modules_perm modules).flatMap_right _

/-- Of extracted modules no rule is lost: none is left out for want of a package or an owner, and each
that belongs to a topic is documented once, in the section of its own path. -/
theorem extracted_documented_once (extracted : ∀ module ∈ modules, module.IsExtracted) :
    let registry := Registry.ofModules modules
    let membership := Membership.ofRegistry registry
    membership.warnings = [] ∧
      (∀ topic title file, .ruleUnowned title file ∉ Document.buildEvents registry topic) ∧
      DocumentsComplete modules (Document.build registry membership) := by
  intro registry membership
  have headed : ∀ module ∈ modules, Headed module.annotations :=
    fun module mem => (extracted module mem).headed
  refine ⟨?_, ?_, documents_complete headed membership⟩
  · rw [Membership.warnings_ofModules, unresolvedRules_headed headed, List.map_nil]
  · intro topic title file mem
    have skipsNone : (Assembly.ofTopic registry topic).SkipsNone := by
      refine Assembly.foldl_addModule_skipsNone (by simp [Assembly.SkipsNone, Assembly.empty]) ?_
      intro module inTopic
      have kept := (List.mem_filter.1 inTopic).1
      rw [Registry.modules_ofModules] at kept
      exact headed module (List.mem_filter.1 kept).1
    rcases List.mem_append.1 mem with skipped | built
    · exact skipsNone title file skipped
    · simp at built

end

/-- A package in two topics and outside of all of them, and a collection. -/
def sampleModules : List AnnotatedModule :=
  [ ("policy/release/lib.rego", "# METADATA\npackage lib\n# METADATA\n" ++
      "# custom: {short_name: a}\ndeny if x\n"),
    ("policy/task/lib.rego", "# METADATA\n# title: Library\npackage lib\n# METADATA\n# title: B\n" ++
      "# custom: {short_name: b, collections: [all]}\nwarn if x\n"),
    ("lib.rego", "# METADATA\npackage lib\n# METADATA\nallow if x\n"),
    ("policy/release/all.rego", "# METADATA\n# title: all\npackage rules.collection.all\n")
  ].filterMap fun entry => AnnotatedModule.ofText? (.ofText entry.1) entry.2

theorem isExtractedInPlace_of_mem_sampleModules :
    ∀ module ∈ sampleModules, module.IsExtractedInPlace := by
  intro module mem
  obtain ⟨entry, _, accepted⟩ := List.mem_filterMap.1 mem
  exact AnnotatedModule.isExtractedInPlace_of_ofText? accepted

/-- Two rules of the sample are in topics. -/
theorem extracted_documented_once_sample :
    sampleModules.map (·.annotations.length) = [2, 2, 2, 1] ∧
      (∀ module ∈ sampleModules, module.IsExtracted) ∧
      (Membership.ofRegistry (.ofModules sampleModules)).warnings = [] ∧
      DocumentsComplete sampleModules (Document.build (.ofModules sampleModules)
        (.ofRegistry (.ofModules sampleModules))) ∧
      (Topic.all.flatMap fun topic => (Document.build (.ofModules sampleModules)
        (.ofRegistry (.ofModules sampleModules)) topic).packages.flatMap Section.placed).length =
          2 := by
  have extracted : ∀ module ∈ sampleModules, module.IsExtracted :=
    fun module mem => (isExtractedInPlace_of_mem_sampleModules module mem).isExtracted
  obtain ⟨noWarning, _, complete⟩ := extracted_documented_once extracted
  have inTopics : sampleModules.map (·.annotations.length) = [2, 2, 2, 1] ∧
      (ownPlacements ((sampleModules.filter fun module => (Topic.of? module.file).isSome).flatMap
        AnnotatedModule.annotations)).length = 2 := by
    decide +kernel
  refine ⟨inTopics.1, extracted, noWarning, complete, ?_⟩
  rw [complete.allTopics.length_eq, inTopics.2]

end PolicyPages
