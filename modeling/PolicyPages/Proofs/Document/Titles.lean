import Mathlib.Data.List.Flatten
import PolicyPages.Proofs.Document.Completeness

/-!
# When titles decide the order

Modules are documented in the order in which they are found, and then sorted by title, so the order of
discovery shows only where titles are equal. `build_eq_of_perm` is that it does not show at all if
titles decide: no two modules declare one path, no two packages have one title, and no two rules of a
module have one title.

Under these conditions a search finds the one annotation that there is, wherever it stands
(`TitlesDecide.firstPackage?_eq`), every package opens a section of its own
(`openings_eq_filter`), and the keys of each sort are distinct, so that the sort leaves one order only
(`StablySorted.eq_of_perm`).
-/

namespace PolicyPages

open Annotation (isDocumentedRule isPackage isPackage_eq_false_iff isPackage_eq_true_iff
  opensCollection opensSection packagePath title)

/-- The annotations of modules can be told apart by the titles that they are sorted by. -/
structure TitlesDecide (modules : List AnnotatedModule) : Prop where
  /-- No two modules declare one package path. -/
  onePerPath : (modules.filterMap AnnotatedModule.packagePath?).Nodup
  packages : (((modules.flatMap AnnotatedModule.annotations).filter isPackage).map title).Nodup
  /-- Within a module, no two rules have one title. -/
  rules : ∀ module ∈ modules, ((module.annotations.filter (!·.isPackage)).map title).Nodup

/-! ### Headed lists -/

namespace Headed

variable {module : AnnotatedModule}

/-- A headed list has the package of its path and no other. -/
theorem map_packagePath_packages (h : Headed module.annotations) :
    (module.annotations.filter isPackage).map packagePath = module.packagePath?.toList := by
  rw [AnnotatedModule.packagePath?]
  rcases h with none | ⟨package, rules, whole, isPackage, below⟩
  · simp [none]
  · have noOther : rules.filter Annotation.isPackage = [] := by
      rw [List.filter_eq_nil_iff]
      intro rule mem
      simp [(below rule mem).1]
    simp [whole, isPackage, noOther, packagePath]

theorem packagePath?_eq (h : Headed module.annotations) {note : Annotation}
    (mem : note ∈ module.annotations) : module.packagePath? = some note.packagePath := by
  rw [AnnotatedModule.packagePath?]
  rcases h with none | ⟨package, rules, whole, _, below⟩
  · simp [none] at mem
  · rw [whole] at mem ⊢
    rcases List.mem_cons.1 mem with rfl | later
    · rfl
    · exact congrArg some (below note later).2.symm

end Headed

/-! ### Openings -/

/-- Packages with distinct paths open a section each. -/
theorem openings_eq_filter {notes : List Annotation}
    (distinct : ((notes.filter opensSection).map packagePath).Nodup) :
    openings notes = notes.filter opensSection := by
  induction notes using List.reverseRecOn with
  | nil => rfl
  | append_singleton notes note ih =>
    rw [filter_opensSection_concat] at distinct ⊢
    cases opens : note.opensSection with
    | false =>
      rw [(openings_concat_of_not_opens opens).2]
      simp only [opens, Bool.false_eq_true, if_false, List.append_nil] at distinct ⊢
      exact ih distinct
    | true =>
      simp only [opens, if_true, List.map_append, List.nodup_append] at distinct ⊢
      obtain ⟨earlier, _, apart⟩ := distinct
      have new : note.packagePath ∉ openPaths notes := by
        rw [mem_openPaths]
        rintro ⟨package, mem, same⟩
        exact apart _ (List.mem_map_of_mem mem) note.packagePath (by simp) same
      rw [openings_concat_of_new opens new, ih earlier]

theorem notesOf_flatten_sublist (modules : List AnnotatedModule) (topic : Topic) :
    (topic.notesOf modules).flatten.Sublist (modules.flatMap AnnotatedModule.annotations) := by
  rw [Topic.notesOf, ← List.flatMap_def]
  exact List.filter_sublist.flatMap _

namespace TitlesDecide

variable {modules permuted : List AnnotatedModule}

theorem of_perm (h : TitlesDecide modules) (perm : modules.Perm permuted) :
    TitlesDecide permuted where
  onePerPath := (perm.filterMap _).nodup_iff.1 h.onePerPath
  packages := (((perm.flatMap_right _).filter _).map _).nodup_iff.1 h.packages
  rules module mem := h.rules module (perm.mem_iff.2 mem)

/-- No two packages of a topic have one title. -/
theorem titles_nodup (h : TitlesDecide modules) (topic : Topic) {opens : Annotation → Bool}
    (packagesOnly : ∀ note, opens note = true → note.isPackage = true) :
    (((topic.notesOf modules).flatten.filter opens).map title).Nodup := by
  refine h.packages.sublist (List.Sublist.map _ ?_)
  refine List.Sublist.trans ?_ ((notesOf_flatten_sublist modules topic).filter _)
  exact List.monotone_filter_right _ packagesOnly

section

variable (h : TitlesDecide modules) (headed : ∀ module ∈ modules, Headed module.annotations)

include h headed

/-- No two packages have one path. -/
theorem packagePaths_nodup :
    (((modules.flatMap AnnotatedModule.annotations).filter isPackage).map packagePath).Nodup := by
  have paths : ((modules.flatMap AnnotatedModule.annotations).filter isPackage).map packagePath =
      modules.filterMap AnnotatedModule.packagePath? := by
    rw [List.filter_flatMap, List.map_flatMap, List.filterMap_eq_flatMap_toList]
    exact List.flatMap_congr fun module mem => (headed module mem).map_packagePath_packages
  rw [paths]
  exact h.onePerPath

/-- No two rules of one path have one title. -/
theorem rulesApart : (((modules.flatMap AnnotatedModule.annotations).filter (!·.isPackage)).map
    fun rule => (rule.packagePath, rule.title)).Nodup := by
  rw [List.filter_flatMap, List.map_flatMap, List.Nodup, List.pairwise_flatMap]
  constructor
  · intro module mem
    refine List.Nodup.of_map Prod.snd ?_
    rw [List.map_map]
    exact h.rules module mem
  · -- Rules of two modules differ in their paths already.
    refine (List.pairwise_filterMap.1 h.onePerPath).imp_of_mem ?_
    intro module other mem mem' apart x memX y memY same
    obtain ⟨rule, inModule, rfl⟩ := List.mem_map.1 memX
    obtain ⟨rule', inOther, rfl⟩ := List.mem_map.1 memY
    have path := (headed module mem).packagePath?_eq (List.mem_filter.1 inModule).1
    have path' := (headed other mem').packagePath?_eq (List.mem_filter.1 inOther).1
    exact apart _ path _ path' (congrArg Prod.fst same)

/-- A search for the package of a path finds the only one. -/
theorem firstPackage?_eq_some_iff {path : String} {package : Annotation} :
    firstPackage? (modules.flatMap AnnotatedModule.annotations) path = some package ↔
      package ∈ modules.flatMap AnnotatedModule.annotations ∧ package.isPackage = true ∧
        package.packagePath = path := by
  constructor
  · intro found
    have passes := List.find?_some found
    simp only [Bool.and_eq_true, beq_iff_eq] at passes
    exact ⟨List.mem_of_find?_eq_some found, passes⟩
  · rintro ⟨mem, isPackage, path⟩
    obtain ⟨first, found⟩ := Option.isSome_iff_exists.1
      (isSome_firstPackage?_iff.2 ⟨package, mem, isPackage, path⟩)
    have passes := List.find?_some found
    simp only [Bool.and_eq_true, beq_iff_eq] at passes
    have inPackages := List.mem_filter.2 ⟨List.mem_of_find?_eq_some found, passes.1⟩
    have same := List.inj_on_of_nodup_map (packagePaths_nodup h headed) inPackages
      (List.mem_filter.2 ⟨mem, isPackage⟩) (passes.2.trans path.symm)
    rw [found, same]

theorem firstPackage?_eq (perm : modules.Perm permuted) (path : String) :
    firstPackage? (permuted.flatMap AnnotatedModule.annotations) path =
      firstPackage? (modules.flatMap AnnotatedModule.annotations) path := by
  have headed' : ∀ module ∈ permuted, Headed module.annotations :=
    fun module mem => headed module (perm.mem_iff.2 mem)
  ext package
  rw [firstPackage?_eq_some_iff h headed, firstPackage?_eq_some_iff (h.of_perm perm) headed',
    (perm.flatMap_right _).mem_iff]

/-! ### Collections -/

/-- No two members of a tag stand under one package title with one title. -/
theorem memberKeys_nodup (tag : String) :
    ((membersOf (modules.flatMap AnnotatedModule.annotations) tag).map Member.key).Nodup := by
  let notes := modules.flatMap AnnotatedModule.annotations
  have rulesOnly : membersOf notes tag =
      (notes.filter (!·.isPackage)).filterMap (memberOf? notes tag) := by
    rw [membersOf, List.filterMap_filter]
    refine List.filterMap_congr fun note _ => ?_
    cases isPackage : note.isPackage <;> simp [memberOf?, isPackage]
  have apart := List.pairwise_map.1 (rulesApart h headed)
  rw [rulesOnly, List.Nodup, List.pairwise_map, List.pairwise_filterMap]
  refine apart.imp_of_mem ?_
  intro rule other _ _ apart member entry member' entry' same
  simp only [memberOf?, Option.ite_none_right_eq_some, Option.map_eq_some_iff] at entry entry'
  obtain ⟨_, package, found, rfl⟩ := entry
  obtain ⟨_, package', found', rfl⟩ := entry'
  obtain ⟨mem, isPackage, path⟩ := (firstPackage?_eq_some_iff h headed).1 found
  obtain ⟨mem', isPackage', path'⟩ := (firstPackage?_eq_some_iff h headed).1 found'
  obtain ⟨sameTitle, sameRule⟩ : package.title = package'.title ∧ rule.title = other.title := by
    simpa [Member.key, Member.ofRule] using same
  have samePackage := List.inj_on_of_nodup_map h.packages (List.mem_filter.2 ⟨mem, isPackage⟩)
    (List.mem_filter.2 ⟨mem', isPackage'⟩) sameTitle
  subst samePackage
  exact apart (Prod.ext (path.symm.trans path') sameRule)

/-- The members of a tag do not depend on the order of the modules. -/
theorem members_eq_of_perm (perm : modules.Perm permuted) (tag : String) :
    (Membership.ofRegistry (.ofModules permuted)).members tag =
      (Membership.ofRegistry (.ofModules modules)).members tag := by
  have entries : memberOf? (permuted.flatMap AnnotatedModule.annotations) tag =
      memberOf? (modules.flatMap AnnotatedModule.annotations) tag := by
    funext rule
    rw [memberOf?, memberOf?, firstPackage?_eq h headed perm]
  have members : (membersOf (modules.flatMap AnnotatedModule.annotations) tag).Perm
      (membersOf (permuted.flatMap AnnotatedModule.annotations) tag) := by
    rw [membersOf, membersOf, entries]
    exact (perm.flatMap_right _).filterMap _
  symm
  exact (Membership.stablySorted_members_ofModules modules tag).eq_of_perm
    (Membership.stablySorted_members_ofModules permuted tag) members (memberKeys_nodup h headed tag)

end

end TitlesDecide

/-! ### Sections -/

section

variable {modules permuted : List AnnotatedModule} {topic : Topic}

theorem notesOf_flatten_perm (perm : modules.Perm permuted) (topic : Topic) :
    (topic.notesOf modules).flatten.Perm (topic.notesOf permuted).flatten :=
  ((perm.filter _).map _).flatten

/-- The section of a package with the rules of its path. -/
def sectionOf (notes : List Annotation) (package : Annotation) : Section :=
  (⟨package, rulesUnder (ownPlacements notes) package.packagePath⟩ : Section).sorted

theorem rulesUnder_ownPlacements (notes : List Annotation) (path : String) :
    rulesUnder (ownPlacements notes) path =
      (notes.filter isDocumentedRule).filter (·.packagePath = path) := by
  rw [rulesUnder, ownPlacements, List.filter_map, List.map_map]
  refine (List.map_id' _).trans (List.filter_congr fun rule _ => ?_)
  simp

variable (h : TitlesDecide modules) (headed : ∀ module ∈ modules, Headed module.annotations)

include h headed

theorem parts_eq_map_sectionOf : (Assembly.ofTopic (.ofModules modules) topic).parts =
    ((topic.notesOf modules).flatten.filter opensSection).map
      (sectionOf (topic.notesOf modules).flatten) := by
  have headedLists : ∀ notes ∈ topic.notesOf modules, Headed notes := by
    intro notes mem
    obtain ⟨module, inTopic, rfl⟩ := List.mem_map.1 mem
    exact headed module (List.mem_filter.1 inTopic).1
  have opened : openings (topic.notesOf modules).flatten =
      (topic.notesOf modules).flatten.filter opensSection := by
    apply openings_eq_filter
    refine List.Nodup.sublist (List.Sublist.map _ ?_) (h.packagePaths_nodup headed)
    refine List.Sublist.trans ?_ ((notesOf_flatten_sublist modules topic).filter _)
    exact List.monotone_filter_right _ fun note opens => (Bool.and_eq_true_iff.1 opens).1
  have assembled := Assembled.ofModules modules topic
  rw [Assembly.parts, assembled.sections, opened, placements_headed headedLists, List.map_map]
  rfl

/-- The rules of one package have different titles in each topic. -/
theorem nodup_titles_rulesUnder (package : Annotation) :
    ((rulesUnder (ownPlacements (topic.notesOf modules).flatten) package.packagePath).map
      title).Nodup := by
  rw [rulesUnder_ownPlacements]
  let rules := ((topic.notesOf modules).flatten.filter isDocumentedRule).filter
    (·.packagePath = package.packagePath)
  have below : rules.Sublist ((modules.flatMap AnnotatedModule.annotations).filter (!·.isPackage)) := by
    refine List.filter_sublist.trans (List.Sublist.trans ?_
      ((notesOf_flatten_sublist modules topic).filter _))
    exact List.monotone_filter_right _ fun note opens => (Bool.and_eq_true_iff.1 opens).1
  -- Rules are apart by package and title; those of one package are apart by title alone.
  have apart := List.pairwise_map.1 ((h.rulesApart headed).sublist (below.map _))
  refine List.pairwise_map.2 (apart.imp_of_mem ?_)
  intro rule other mem mem' apart same
  have path := of_decide_eq_true (List.mem_filter.1 mem).2
  have path' := of_decide_eq_true (List.mem_filter.1 mem').2
  exact apart (Prod.ext (path.trans path'.symm) same)

/-- The section of a package does not depend on the order of the modules. -/
theorem sectionOf_eq_of_perm (perm : modules.Perm permuted) (package : Annotation) :
    sectionOf (topic.notesOf modules).flatten package =
      sectionOf (topic.notesOf permuted).flatten package := by
  let rules := rulesUnder (ownPlacements (topic.notesOf modules).flatten) package.packagePath
  have permRules : rules.Perm
      (rulesUnder (ownPlacements (topic.notesOf permuted).flatten) package.packagePath) := by
    rw [show rules = _ from rulesUnder_ownPlacements _ _, rulesUnder_ownPlacements]
    exact ((notesOf_flatten_perm perm topic).filter _).filter _
  have same := (stablySorted_title title rules).eq_of_perm (stablySorted_title title _) permRules
    (nodup_titles_rulesUnder h headed package)
  rw [sectionOf, sectionOf, Section.sorted, Section.sorted]
  exact congrArg (Section.mk package) same

theorem packages_eq_of_perm (perm : modules.Perm permuted) (topic : Topic)
    (membership other : Membership) :
    (Document.build (.ofModules modules) membership topic).packages =
      (Document.build (.ofModules permuted) other topic).packages := by
  have headed' : ∀ module ∈ permuted, Headed module.annotations :=
    fun module mem => headed module (perm.mem_iff.2 mem)
  have parts := @parts_eq_map_sectionOf modules topic h headed
  have permParts : (Assembly.ofTopic (.ofModules modules) topic).parts.Perm
      (Assembly.ofTopic (.ofModules permuted) topic).parts := by
    rw [parts, parts_eq_map_sectionOf (h.of_perm perm) headed',
      List.map_congr_left fun package _ => sectionOf_eq_of_perm h headed perm package]
    exact ((notesOf_flatten_perm perm topic).filter _).map _
  have titles : ((Assembly.ofTopic (.ofModules modules) topic).parts.map
      fun part => part.package.title).Nodup := by
    rw [parts, List.map_map]
    exact h.titles_nodup topic fun note opens => (Bool.and_eq_true_iff.1 opens).1
  exact (stablySorted_title (fun part : Section => part.package.title) _).eq_of_perm
    (stablySorted_title _ _) permParts titles

theorem collections_eq_of_perm (perm : modules.Perm permuted) (topic : Topic) :
    (Document.build (.ofModules modules) (.ofRegistry (.ofModules modules)) topic).collections =
      (Document.build (.ofModules permuted) (.ofRegistry (.ofModules permuted)) topic).collections := by
  let listing (note : Annotation) : Listing :=
    ⟨note, (Membership.ofRegistry (.ofModules modules)).members note.title⟩
  have listings : (Assembly.ofTopic (.ofModules permuted) topic).collections.map (fun note =>
      (⟨note, (Membership.ofRegistry (.ofModules permuted)).members note.title⟩ : Listing)) =
        ((topic.notesOf permuted).flatten.filter opensCollection).map listing := by
    rw [(Assembled.ofModules permuted topic).collections]
    refine List.map_congr_left fun note _ => ?_
    rw [h.members_eq_of_perm headed perm]
  have permListings :
      ((Assembly.ofTopic (.ofModules modules) topic).collections.map listing).Perm
        ((Assembly.ofTopic (.ofModules permuted) topic).collections.map fun note =>
          (⟨note, (Membership.ofRegistry (.ofModules permuted)).members note.title⟩ : Listing)) := by
    rw [listings, (Assembled.ofModules modules topic).collections]
    exact ((notesOf_flatten_perm perm topic).filter _).map _
  refine (stablySorted_title (fun found : Listing => found.collection.title) _).eq_of_perm
    (stablySorted_title _ _) permListings ?_
  rw [(Assembled.ofModules modules topic).collections, List.map_map]
  exact h.titles_nodup topic fun note opens => (Bool.and_eq_true_iff.1 opens).1

end

/-- Where titles decide, the document of a topic is the same in whatever order the modules are found. -/
theorem build_eq_of_perm {modules permuted : List AnnotatedModule}
    (extracted : ∀ module ∈ modules, module.IsExtracted) (h : TitlesDecide modules)
    (perm : modules.Perm permuted) (topic : Topic) :
    Document.build (.ofModules permuted) (.ofRegistry (.ofModules permuted)) topic =
      Document.build (.ofModules modules) (.ofRegistry (.ofModules modules)) topic := by
  have headed : ∀ module ∈ modules, Headed module.annotations :=
    fun module mem => (extracted module mem).headed
  have packages := packages_eq_of_perm h headed perm topic (.ofRegistry (.ofModules modules))
    (.ofRegistry (.ofModules permuted))
  have collections := collections_eq_of_perm h headed perm topic
  unfold Document.build Document.ofAssembly at packages collections ⊢
  rw [Document.mk.injEq]
  exact ⟨rfl, packages.symm, collections.symm⟩

/-- A collection with rules of two topics, found after them. -/
def titledModules : List AnnotatedModule :=
  [ ("policy/release/z.rego", "# METADATA\n# title: Z\npackage z\n" ++
      "# METADATA\n# title: B\n# custom:\n#  collections: [m]\ndeny if x\n" ++
      "# METADATA\n# title: A\nwarn if x\n"),
    ("policy/task/y.rego", "# METADATA\n# title: Y\npackage y\n" ++
      "# METADATA\n# title: B\n# custom:\n#  collections: [m]\ndeny if x\n"),
    ("policy/release/m.rego", "# METADATA\n# title: m\npackage a.collection.m\n")
  ].filterMap fun entry => AnnotatedModule.ofText? (.ofText entry.1) entry.2

/-- Found in reverse, the modules are documented the same, although their members are met in reverse. -/
theorem build_eq_of_perm_reverse :
    let build (modules : List AnnotatedModule) :=
      Document.build (.ofModules modules) (.ofRegistry (.ofModules modules))
    let met (modules : List AnnotatedModule) :=
      (membersOf (modules.flatMap AnnotatedModule.annotations) "m").map Member.key
    (∀ module ∈ titledModules, module.IsExtracted) ∧ TitlesDecide titledModules ∧
      titledModules.Perm titledModules.reverse ∧ (met titledModules).length = 2 ∧
      met titledModules ≠ met titledModules.reverse ∧
      ∀ topic, build titledModules.reverse topic = build titledModules topic := by
  intro build met
  have extracted : ∀ module ∈ titledModules, module.IsExtracted := by
    intro module mem
    obtain ⟨entry, _, accepted⟩ := List.mem_filterMap.1 mem
    exact (AnnotatedModule.isExtractedInPlace_of_ofText? accepted).isExtracted
  have evaluated :
      (titledModules.filterMap AnnotatedModule.packagePath?).Nodup ∧
      (((titledModules.flatMap AnnotatedModule.annotations).filter isPackage).map title).Nodup ∧
      (∀ module ∈ titledModules, ((module.annotations.filter (!·.isPackage)).map title).Nodup) ∧
      (met titledModules).length = 2 ∧ met titledModules ≠ met titledModules.reverse := by
    decide +kernel
  obtain ⟨onePerPath, packages, rules, two, apart⟩ := evaluated
  have decides : TitlesDecide titledModules := ⟨onePerPath, packages, rules⟩
  have perm := titledModules.reverse_perm.symm
  exact ⟨extracted, decides, perm, two, apart, build_eq_of_perm extracted decides perm⟩

end PolicyPages
