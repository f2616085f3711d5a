import PolicyPages.Proofs.Document.Completeness
import PolicyPages.Proofs.Page.Lines

/-!
# Where the links of collections lead

The link from a collection to a rule is made from the entry of the rule alone: its file gives the
topic, its target path the page, its short name the place on the page. The page of a package is made
on another way: from the modules of a topic, grouped by package path. `memberLink_hits_section` is that
both ways meet, for modules that are extracted in place.

They meet because a package path determines the target path of its package, and those of its rules
but for the last segment (`exists_packageName_eq_ownerName?`), and because a rule in a topic stands in
the section of its own path.
-/

namespace PolicyPages

open Annotation (anchor customText? isDocumentedRule isPackage_eq_false_iff opensSection ownerName?
  packageName packagePath ruleAnchor shortName?)

/-! ### Entries and their rules -/

/-- The member is the entry of the rule, under the title that it is listed with. -/
structure IsEntryOf (member : Member) (rule : Annotation) : Prop where
  isRule : rule.isPackage = false
  eq : member = .ofRule member.packageTitle rule

namespace Member

variable {title : String} {rule : Annotation}

theorem shortName?_ofRule : (ofRule title rule).rule.shortName? = rule.shortName? := by
  rw [shortName?, Annotation.customText?, get?_custom_ofRule (by decide)]
  rfl

/-- An entry has the identifier of its rule. -/
theorem anchor_ofRule : (ofRule title rule).rule.anchor = rule.anchor := by
  have onRules : (ofRule title rule).rule.ruleAnchor = rule.ruleAnchor := by
    rw [ruleAnchor, shortName?_ofRule]
    rfl
  rw [anchor, onRules]
  rfl

end Member

section

variable {modules : List AnnotatedModule} {membership : Membership} {topic : Topic}

/-- A section is that of a package annotation of a module. -/
theorem exists_module_of_section {part : Section}
    (mem : part ∈ (Document.build (.ofModules modules) membership topic).packages) :
    ∃ module ∈ modules, part.package ∈ module.annotations ∧ part.package.isPackage = true := by
  rw [(packages_build_perm _ membership topic).mem_iff] at mem
  have opened : part.package ∈ openings (topic.notesOf modules).flatten := by
    rw [← (Assembled.ofModules modules topic).map_package_parts]
    exact List.mem_map_of_mem mem
  obtain ⟨inNotes, opens⟩ := mem_of_mem_openings opened
  obtain ⟨notes, inTopic, inModule⟩ := List.mem_flatten.1 inNotes
  obtain ⟨module, kept, rfl⟩ := List.mem_map.1 inTopic
  refine ⟨module, (List.mem_filter.1 kept).1, inModule, ?_⟩
  simp only [opensSection, Bool.and_eq_true] at opens
  exact opens.1

/-- A rule of a section is one of a module, if every list begins with its package. -/
theorem exists_module_of_rule (headed : ∀ module ∈ modules, Headed module.annotations)
    {part : Section}
    (mem : part ∈ (Document.build (.ofModules modules) membership topic).packages)
    {rule : Annotation} (inPart : rule ∈ part.rules) :
    ∃ module ∈ modules, rule ∈ module.annotations ∧ rule.isPackage = false := by
  have placed : (some part.path, rule) ∈ ownPlacements (topic.notesOf modules).flatten := by
    rw [← (@placed_packages_perm modules topic membership headed).mem_iff]
    exact List.mem_flatMap.2 ⟨part, mem, List.mem_map_of_mem inPart⟩
  obtain ⟨_, kept, same⟩ := List.mem_map.1 placed
  obtain ⟨-, rfl⟩ := Prod.mk.inj same
  obtain ⟨inNotes, documented⟩ := List.mem_filter.1 kept
  obtain ⟨notes, inTopic, inModule⟩ := List.mem_flatten.1 inNotes
  obtain ⟨module, ofTopic, rfl⟩ := List.mem_map.1 inTopic
  refine ⟨module, (List.mem_filter.1 ofTopic).1, inModule, ?_⟩
  simpa using (Bool.and_eq_true_iff.1 documented).1

/-- A listed collection is that of a package annotation of a module. -/
theorem exists_module_of_listing {listing : Listing}
    (listed : listing ∈ (Document.build (.ofModules modules) membership topic).collections) :
    ∃ module ∈ modules, listing.collection ∈ module.annotations ∧
      listing.collection.isPackage = true := by
  rw [Document.build, Document.ofAssembly, List.mem_mergeSort,
    (Assembled.ofModules modules topic).collections] at listed
  obtain ⟨note, kept, rfl⟩ := List.mem_map.1 listed
  obtain ⟨inNotes, opens⟩ := List.mem_filter.1 kept
  obtain ⟨notes, inTopic, inModule⟩ := List.mem_flatten.1 inNotes
  obtain ⟨module, ofTopic, rfl⟩ := List.mem_map.1 inTopic
  exact ⟨module, (List.mem_filter.1 ofTopic).1, inModule, (Bool.and_eq_true_iff.1 opens).1⟩

/-- A member of a collection is the entry of a rule of a module. -/
theorem exists_module_of_member {listing : Listing} {member : Member}
    (listed : listing ∈ (Document.build (.ofModules modules)
      (.ofRegistry (.ofModules modules)) topic).collections)
    (mem : member ∈ listing.members) :
    ∃ module ∈ modules, ∃ rule ∈ module.annotations, IsEntryOf member rule := by
  rw [members_of_mem_collections listed, Membership.mem_members_ofModules_iff,
    mem_membersOf_iff] at mem
  obtain ⟨rule, inNotes, isRule, _, package, _, rfl⟩ := mem
  obtain ⟨module, memModule, inModule⟩ := List.mem_flatMap.1 inNotes
  exact ⟨module, memModule, rule, inModule, isRule, rfl⟩

end

/-- A rule names the package with its path as its owner. -/
theorem exists_packageName_eq_ownerName? {module other : AnnotatedModule}
    (extracted : module.IsExtracted) (extracted' : other.IsExtracted) {package rule : Annotation}
    (mem : package ∈ module.annotations) (isPackage : package.isPackage = true)
    (mem' : rule ∈ other.annotations) (isRule : rule.isPackage = false)
    (same : package.packagePath = rule.packagePath) :
    ∃ name, package.packageName = .ok name ∧ rule.ownerName? = some name := by
  obtain ⟨segments, ofPackage⟩ := extracted.exists_ofPackage
  obtain ⟨segments', ofPackage'⟩ := extracted'.exists_ofPackage
  obtain rfl := ofPackage.segments_eq ofPackage' mem mem' same
  have target := ofPackage.targetPath_package mem isPackage
  obtain ⟨ruleName, below⟩ := ofPackage'.targetPath_rule mem' isRule
  obtain ⟨name, last⟩ : ∃ name, (Source.rootSegment :: segments).getLast? = some name :=
    ⟨_, List.getLast?_eq_some_getLast (by simp)⟩
  refine ⟨name, ?_, ?_⟩
  · rw [packageName, target, last]
  · rw [ownerName?, below, List.dropLast_concat, last]

theorem IsEntryOf.packagePath_eq {member : Member} {rule : Annotation}
    (h : IsEntryOf member rule) : member.rule.packagePath = rule.packagePath :=
  congrArg (fun member : Member => member.rule.packagePath) h.eq

/-- The rule of an entry is in the module that the entry names, and documented like the entry. -/
theorem documented_of_isEntryOf {module : AnnotatedModule} (extracted : module.IsExtractedInPlace)
    {member : Member} {rule : Annotation} (mem : rule ∈ module.annotations)
    (entry : IsEntryOf member rule) (ordinary : member.rule.inCollectionModule = false) :
    module.file = member.rule.location.file ∧ rule.isDocumentedRule = true := by
  have outside : rule.inCollectionModule = false :=
    (inCollectionModule_congr entry.packagePath_eq).symm.trans ordinary
  refine ⟨?_, by simp [isDocumentedRule, entry.isRule, outside]⟩
  rw [entry.eq]
  exact (extracted.file_eq mem).symm

namespace AsciiDoc

/-! ### Links -/

/-- The text that the link of a member is shown with. -/
def memberLabel (member : Member) : String :=
  member.packageTitle ++ ": " ++ member.rule.title

theorem memberLink_eq {member : Member} {home : Topic} {name id : String}
    (inHome : Topic.of? member.rule.location.file = some home)
    (owned : member.rule.ownerName? = some name) (anchored : member.rule.anchor = .ok id) :
    memberLink member =
      .ok (link (packagePage home.qualifier name ++ "#" ++ id) (memberLabel member)) := by
  simp [memberLink, inHome, owned, anchored, bind, Except.bind, pure, Except.pure, memberLabel]

/-- The link of a member leads to a section of a document: the section is the only one with the path
of the rule, it holds the rule, the link names its page, and that page has the identifier in the
link. -/
structure HitsSection (member : Member) (document : Document) (part : Section) (id : String) :
    Prop where
  mem : part ∈ document.packages
  path : part.path = member.rule.packagePath
  only : (document.packages.map Section.path).count member.rule.packagePath = 1
  rule : ∃ rule ∈ part.rules, IsEntryOf member rule
  link : ∃ name, part.package.packageName = .ok name ∧ memberLink member =
    .ok (link (packagePage document.topic.qualifier name ++ "#" ++ id) (memberLabel member))
  anchored : ∀ sourceUrl text, (renderer sourceUrl).package document part = .ok text →
    (blockId id).toList <:+: text.toList

section

variable {modules : List AnnotatedModule} {topic home : Topic} {listing : Listing} {member : Member}
  {id : String}

/-- The entry of a rule that a topic documents leads to the section of the rule. -/
theorem hitsSection_ofRule (extracted : ∀ module ∈ modules, module.IsExtractedInPlace)
    {module : AnnotatedModule} {rule : Annotation} (atHome : home ∈ Topic.all)
    (inHome : home.contains module.file = true) (memModule : module ∈ modules)
    (memRule : rule ∈ module.annotations) (documented : rule.isDocumentedRule = true)
    (anchored : rule.anchor = .ok id) (title : String) (membership : Membership) :
    ∃ part, HitsSection (.ofRule title rule)
      (Document.build (.ofModules modules) membership home) part id := by
  have isRule : rule.isPackage = false := by
    simp only [isDocumentedRule, Bool.and_eq_true, Bool.not_eq_true'] at documented
    exact documented.1
  have headed : ∀ module ∈ modules, Headed module.annotations :=
    fun module mem => (extracted module mem).isExtracted.headed
  obtain ⟨part, memPart, path, inPart⟩ := @exists_section modules home membership headed module
    memModule inHome rule memRule documented
  obtain ⟨other, memOther, inOther, isPackage⟩ := exists_module_of_section memPart
  obtain ⟨name, named, owned⟩ := exists_packageName_eq_ownerName?
    (extracted other memOther).isExtracted (extracted module memModule).isExtracted
    inOther isPackage memRule isRule path
  refine ⟨part, ?_⟩
  constructor
  case mem => exact memPart
  case path => exact path
  case only =>
    apply List.count_eq_one_of_mem (nodup_path_packages modules membership home)
    exact List.mem_map.2 ⟨part, memPart, path⟩
  case rule => exact ⟨rule, inPart, isRule, rfl⟩
  case link =>
    have file : rule.location.file = module.file := (extracted module memModule).file_eq memRule
    have found : Topic.of? (Member.ofRule title rule).rule.location.file = some home := by
      show Topic.of? rule.location.file = some home
      rw [file]
      exact Topic.of?_eq_some_iff.2 ⟨atHome, inHome⟩
    exact ⟨name, named, memberLink_eq found owned (Member.anchor_ofRule.trans anchored)⟩
  case anchored =>
    intro sourceUrl text rendered
    obtain ⟨lines, written, rfl⟩ := page_eq_ok_iff.1 rendered
    obtain ⟨id', anchored', mem⟩ := blockId_mem_packageLines written inPart
    rw [anchored, Except.ok.injEq] at anchored'
    exact infix_textOf (anchored' ▸ mem)

variable (extracted : ∀ module ∈ modules, module.IsExtractedInPlace)
  (listed : listing ∈ (Document.build (.ofModules modules)
    (.ofRegistry (.ofModules modules)) topic).collections)
  (mem : member ∈ listing.members)

include extracted listed mem

/-- A member with an identifier leads to a section in the document of its topic. -/
theorem hitsSection_of_member (ordinary : member.rule.inCollectionModule = false)
    (anchored : member.rule.anchor = .ok id) (atHome : home ∈ Topic.all)
    (inHome : home.contains member.rule.location.file = true) :
    ∃ part, HitsSection member (Document.build (.ofModules modules)
      (.ofRegistry (.ofModules modules)) home) part id := by
  obtain ⟨module, memModule, rule, memRule, entry⟩ := exists_module_of_member listed mem
  obtain ⟨file, documented⟩ := documented_of_isEntryOf (extracted module memModule) memRule entry
    ordinary
  rw [← file] at inHome
  rw [entry.eq, Member.anchor_ofRule] at anchored
  rw [entry.eq]
  exact hitsSection_ofRule extracted atHome inHome memModule memRule documented anchored _ _

end

end AsciiDoc

end PolicyPages
