import PolicyPages.Proofs.Page.Links

/-!
# Which documents can be rendered

A page reads three things off annotations that they may lack: the short name of a rule, its severity,
and the segments of target paths. `pages_render_iff` is that for modules that are extracted only the
first two can be missing: the pages of a topic can be rendered if each documented rule has a short name
and is called `deny` or `warn`, and each listed rule with a link has a short name; and if they cannot,
that is the contract that is violated. The navigation needs neither.

`Targeted` is what extraction guarantees: target paths are long enough, and the last segment of a rule's
is a plain name, so that the dotted target ends in `.deny` just when the rule is called `deny`
(`Annotation.endsWith_dottedTarget_iff`).
-/

namespace PolicyPages

open Annotation (isPackage_eq_false_iff isPackage_eq_true_iff ownerName? packageName shortName?)

namespace Annotation

/-- The custom metadata has a text as short name. -/
def HasShortName (note : Annotation) : Prop :=
  ∃ shortName, Dictionary.get? note.custom "short_name" = some (.string shortName)

/-- The annotation of a package with a target path. -/
def IsTargetedPackage (package : Annotation) : Prop :=
  package.scope = .package ∧ package.targetPath ≠ []

/-- The annotation of a rule whose target path has a package before the name of the rule. -/
def IsTargetedRule (rule : Annotation) : Prop :=
  rule.scope = .rule ∧ ∃ owner name, owner ≠ [] ∧ rule.targetPath = owner ++ [name] ∧
    Source.IsRuleName name

variable {note package rule : Annotation}

theorem exists_shortName?_iff : (∃ shortName, note.shortName? = some shortName) ↔
    note.HasShortName :=
  exists_congr fun _ => shortName?_eq_some_iff

/-! ### Packages -/

theorem IsTargetedPackage.exists_packageName (h : package.IsTargetedPackage) :
    ∃ name, package.packageName = .ok name := by
  rw [packageName, List.getLast?_eq_some_getLast h.2]
  exact ⟨_, rfl⟩

theorem IsTargetedPackage.exists_anchor (h : package.IsTargetedPackage) :
    ∃ id, package.anchor = .ok id := by
  obtain ⟨name, named⟩ := h.exists_packageName
  refine ⟨name ++ "_package", ?_⟩
  rw [anchor, h.1]
  simp only [packageAnchor, named, Except.map]

/-! ### Rules -/

/-- A rule lacks an identifier only for want of a short name. -/
theorem IsTargetedRule.anchor_eq (h : rule.IsTargetedRule) : ∃ owner, rule.anchor =
    match rule.shortName? with
    | none => .error (.noShortName rule.title)
    | some shortName => .ok (owner ++ "__" ++ shortName) := by
  obtain ⟨scope, owner, name, nonempty, target, _⟩ := h
  have owned : rule.ownerName? = some (owner.getLast nonempty) := by
    rw [ownerName?, target, List.dropLast_concat, List.getLast?_eq_some_getLast]
  refine ⟨owner.getLast nonempty, ?_⟩
  rw [anchor, scope]
  cases named : rule.shortName? <;> simp only [ruleAnchor, owned, named]

theorem IsTargetedRule.exists_anchor_iff (h : rule.IsTargetedRule) :
    (∃ id, rule.anchor = .ok id) ↔ rule.HasShortName := by
  obtain ⟨owner, anchored⟩ := h.anchor_eq
  rw [anchored, ← exists_shortName?_iff]
  cases rule.shortName? <;> simp

theorem suffix_dot_iff {word front name : List Char} (wordPlain : '.' ∉ word)
    (namePlain : '.' ∉ name) : '.' :: word <:+ front ++ '.' :: name ↔ word = name := by
  constructor
  · intro ends
    have same : '.' :: word <:+ '.' :: name ∨ '.' :: name <:+ '.' :: word :=
      List.suffix_or_suffix_of_suffix ends (List.suffix_append _ _)
    rcases same with ends | ends
    · rcases List.suffix_cons_iff.1 ends with whole | within
      · exact (List.cons.inj whole).2
      · exact absurd (within.subset List.mem_cons_self) namePlain
    · rcases List.suffix_cons_iff.1 ends with whole | within
      · exact (List.cons.inj whole).2.symm
      · exact absurd (within.subset List.mem_cons_self) wordPlain
  · rintro rfl
    exact List.suffix_append _ _

/-- The dotted target ends in a dot and a word if the word is the name of the rule. -/
theorem IsTargetedRule.endsWith_dottedTarget_iff (h : rule.IsTargetedRule) (word : String)
    (plain : '.' ∉ word.toList) :
    Text.endsWith rule.dottedTarget ("." ++ word) = true ↔
      rule.targetPath.getLast? = some word := by
  obtain ⟨_, owner, name, nonempty, target, isName⟩ := h
  have noDot : '.' ∉ name.toList := fun mem => absurd (isName.chars _ mem) (by decide)
  have dotted : rule.dottedTarget.toList =
      ['.'].intercalate (owner.map String.toList) ++ ['.'] ++ name.toList := by
    rw [dottedTarget, target, String.toList_intercalate, List.map_append, List.map_singleton]
    exact Text.intercalate_concat _ (by simpa using nonempty) _
  rw [Text.endsWith_iff, dotted, target, List.getLast?_concat, Option.some.injEq,
    List.append_assoc, String.toList_append]
  exact (suffix_dot_iff plain noDot).trans (String.toList_inj.trans eq_comm)

/-- The severity of a rule is that of the last segment of its target path. -/
theorem IsTargetedRule.severity_eq (h : rule.IsTargetedRule) : rule.severity =
    if rule.targetPath.getLast? = some "deny" then .ok .failure
    else if rule.targetPath.getLast? = some "warn" then .ok .warning
    else .error (.noSeverity rule.dottedTarget) := by
  have denies : Text.endsWith rule.dottedTarget ".deny" = true ↔ _ :=
    h.endsWith_dottedTarget_iff "deny" (by decide)
  have warns : Text.endsWith rule.dottedTarget ".warn" = true ↔ _ :=
    h.endsWith_dottedTarget_iff "warn" (by decide)
  simp only [severity, denies, warns]

/-- Whether the last segment of the target path is one that a severity is known for. -/
def IsGraded (rule : Annotation) : Prop :=
  rule.targetPath.getLast? = some "deny" ∨ rule.targetPath.getLast? = some "warn"

/-- A rule has a severity if it is called by one of the two names. -/
theorem IsTargetedRule.exists_severity_iff (h : rule.IsTargetedRule) :
    (∃ severity, rule.severity = .ok severity) ↔ rule.IsGraded := by
  rw [IsGraded, h.severity_eq]
  split_ifs with denies warns
  · exact ⟨fun _ => .inl denies, fun _ => ⟨_, rfl⟩⟩
  · exact ⟨fun _ => .inr warns, fun _ => ⟨_, rfl⟩⟩
  · exact ⟨nofun, fun graded => absurd graded (not_or.2 ⟨denies, warns⟩)⟩

end Annotation

/-- What a rule may lack for its pages. -/
inductive IsRuleLack : ContractViolation → Prop
  | shortName (title : String) : IsRuleLack (.noShortName title)
  | severity (target : String) : IsRuleLack (.noSeverity target)

namespace Annotation

variable {rule : Annotation} {violation : ContractViolation}

theorem isRuleLack_of_severity (failed : rule.severity = .error violation) :
    IsRuleLack violation := by
  unfold severity at failed
  split at failed
  · contradiction
  · split at failed
    · contradiction
    · cases failed
      exact .severity _

theorem IsTargetedRule.isRuleLack_of_anchor (h : rule.IsTargetedRule)
    (failed : rule.anchor = .error violation) :
    IsRuleLack violation := by
  obtain ⟨owner, anchored⟩ := h.anchor_eq
  rw [anchored] at failed
  cases named : rule.shortName? with
  | none =>
    rw [named] at failed
    cases failed
    exact .shortName _
  | some shortName =>
    rw [named] at failed
    contradiction

end Annotation

/-- The target paths of a document name what its pages need: a package each, and a rule below it. -/
structure Document.Targeted (document : Document) : Prop where
  packages : ∀ part ∈ document.packages, part.package.IsTargetedPackage
  rules : ∀ part ∈ document.packages, ∀ rule ∈ part.rules, rule.IsTargetedRule
  collections : ∀ listing ∈ document.collections, listing.collection.IsTargetedPackage
  members : ∀ listing ∈ document.collections, ∀ member ∈ listing.members,
    member.rule.IsTargetedRule

namespace AsciiDoc

/-! ### Pages of targeted documents -/

section

variable {base : Option String} {document : Document} {part : Section} {member : Member}
  {rule : Annotation} {name : String} {violation : ContractViolation}

theorem exists_page_iff {lines : Except ContractViolation Lines} :
    (∃ text, page lines = .ok text) ↔ ∃ written, lines = .ok written := by
  cases lines <;> simp [page]

theorem page_eq_error_iff {lines : Except ContractViolation Lines} {failure : Failure} :
    page lines = .error failure ↔ ∃ violation, lines = .error violation ∧
      failure = .contract violation := by
  cases lines with
  | error violation => simp [page, eq_comm]
  | ok written => simp [page]

/-- A navigation names packages only, so nothing is missing. -/
theorem exists_navLines (h : document.Targeted) : ∃ lines, navLines document = .ok lines := by
  unfold navLines
  rw [exists_bind_eq_ok_iff]
  have collections : ∀ listing ∈ document.collections, ∃ line,
      navCollection (Page.overviewName document.topic.qualifier) listing = .ok line := by
    intro listing listed
    obtain ⟨id, anchored⟩ := (h.collections listing listed).exists_anchor
    exact exists_bind_eq_ok_iff.2 ⟨id, anchored, _, rfl⟩
  have packages : ∀ part ∈ document.packages, ∃ line,
      navPackage document.topic.qualifier part = .ok line := by
    intro part mem
    obtain ⟨name, named⟩ := (h.packages part mem).exists_packageName
    exact exists_bind_eq_ok_iff.2 ⟨name, named, _, rfl⟩
  obtain ⟨entries, listed⟩ := exists_mapM_eq_ok_iff.2 collections
  obtain ⟨others, named⟩ := exists_mapM_eq_ok_iff.2 packages
  exact ⟨entries, listed, exists_bind_eq_ok_iff.2 ⟨others, named, _, rfl⟩⟩

/-! ### Package pages -/

theorem exists_ruleLines_iff (h : rule.IsTargetedRule) (package : Annotation) :
    (∃ lines, ruleLines base package name rule = .ok lines) ↔
      rule.HasShortName ∧ rule.IsGraded := by
  unfold ruleLines
  rw [← h.exists_anchor_iff, ← h.exists_severity_iff, exists_bind_eq_ok_iff]
  constructor
  · rintro ⟨id, anchored, later⟩
    obtain ⟨severity, graded, _⟩ := exists_bind_eq_ok_iff.1 later
    exact ⟨⟨id, anchored⟩, severity, graded⟩
  · rintro ⟨⟨id, anchored⟩, severity, graded⟩
    exact ⟨id, anchored, exists_bind_eq_ok_iff.2 ⟨severity, graded, _, rfl⟩⟩

theorem isRuleLack_of_ruleLines (h : rule.IsTargetedRule) {package : Annotation}
    (failed : ruleLines base package name rule = .error violation) : IsRuleLack violation := by
  unfold ruleLines at failed
  rcases bind_eq_error_iff.1 failed with noAnchor | ⟨id, _, later⟩
  · exact h.isRuleLack_of_anchor noAnchor
  · rcases bind_eq_error_iff.1 later with noSeverity | ⟨severity, _, never⟩
    · exact Annotation.isRuleLack_of_severity noSeverity
    · contradiction

theorem exists_packageLines_iff (h : part.package.IsTargetedPackage)
    (rules : ∀ rule ∈ part.rules, rule.IsTargetedRule) :
    (∃ lines, packageLines base part = .ok lines) ↔
      ∀ rule ∈ part.rules, rule.HasShortName ∧ rule.IsGraded := by
  obtain ⟨name, named⟩ := h.exists_packageName
  have blocks : (∃ blocks, part.rules.mapM (ruleLines base part.package name) = .ok blocks) ↔
      ∀ rule ∈ part.rules, rule.HasShortName ∧ rule.IsGraded := by
    rw [exists_mapM_eq_ok_iff]
    exact forall₂_congr fun rule mem => exists_ruleLines_iff (rules rule mem) part.package
  rw [← blocks]
  unfold packageLines
  rw [named, exists_bind_eq_ok_iff]
  constructor
  · rintro ⟨_, ⟨⟩, later⟩
    obtain ⟨blocks, rendered, _⟩ := exists_bind_eq_ok_iff.1 later
    exact ⟨blocks, rendered⟩
  · rintro ⟨blocks, rendered⟩
    exact ⟨name, rfl, exists_bind_eq_ok_iff.2 ⟨blocks, rendered, _, rfl⟩⟩

theorem isRuleLack_of_packageLines (h : part.package.IsTargetedPackage)
    (rules : ∀ rule ∈ part.rules, rule.IsTargetedRule)
    (failed : packageLines base part = .error violation) : IsRuleLack violation := by
  obtain ⟨name, named⟩ := h.exists_packageName
  unfold packageLines at failed
  rcases bind_eq_error_iff.1 failed with unnamed | ⟨_, _, later⟩
  · rw [named] at unnamed
    contradiction
  · rcases bind_eq_error_iff.1 later with noBlock | ⟨_, _, never⟩
    · obtain ⟨rule, mem, failedRule⟩ := exists_mem_of_mapM_eq_error noBlock
      exact isRuleLack_of_ruleLines (rules rule mem) failedRule
    · contradiction

/-! ### Overviews -/

/-- The rule of a member has a short name, if it lies in a topic. -/
def NamedInTopic (member : Member) : Prop :=
  (∃ topic ∈ Topic.all, topic.contains member.rule.location.file = true) →
    member.rule.HasShortName

/-- A member is linked if its rule lies in a topic, and only then its short name is needed. -/
theorem exists_memberLink_iff (h : member.rule.IsTargetedRule) :
    (∃ shown, memberLink member = .ok shown) ↔ NamedInTopic member := by
  rw [NamedInTopic]
  cases home : Topic.of? member.rule.location.file with
  | none =>
    have outside : ¬ ∃ topic ∈ Topic.all,
        topic.contains member.rule.location.file = true := by
      rintro ⟨topic, inTopic⟩
      rw [Topic.of?_eq_some_iff.2 inTopic] at home
      contradiction
    simp only [memberLink, home, outside, false_imp_iff, iff_true]
    exact ⟨_, rfl⟩
  | some topic =>
    have inside : ∃ topic ∈ Topic.all, topic.contains member.rule.location.file = true :=
      ⟨topic, Topic.of?_eq_some_iff.1 home⟩
    simp only [memberLink, home, inside, true_imp_iff]
    rw [← h.exists_anchor_iff, exists_bind_eq_ok_iff]
    refine exists_congr fun id => and_iff_left_of_imp fun _ => ?_
    cases member.rule.ownerName? <;> exact ⟨_, rfl⟩

theorem isRuleLack_of_memberLink (h : member.rule.IsTargetedRule)
    (failed : memberLink member = .error violation) : IsRuleLack violation := by
  cases home : Topic.of? member.rule.location.file with
  | none =>
    simp only [memberLink, home] at failed
    contradiction
  | some topic =>
    simp only [memberLink, home] at failed
    rcases bind_eq_error_iff.1 failed with noAnchor | ⟨id, _, never⟩
    · exact h.isRuleLack_of_anchor noAnchor
    · cases owner : member.rule.ownerName? <;> rw [owner] at never <;> contradiction

theorem exists_memberLines_iff {members : List Member}
    (h : ∀ member ∈ members, member.rule.IsTargetedRule) :
    (∃ lines, memberLines members = .ok lines) ↔ ∀ member ∈ members, NamedInTopic member := by
  have links : (∃ links, members.mapM memberLink = .ok links) ↔
      ∀ member ∈ members, NamedInTopic member := by
    rw [exists_mapM_eq_ok_iff]
    exact forall₂_congr fun member mem => exists_memberLink_iff (h member mem)
  rw [← links]
  cases members with
  | nil => exact iff_of_true ⟨_, rfl⟩ ⟨_, rfl⟩
  | cons member rest =>
    rw [memberLines, if_neg (by simp), exists_bind_eq_ok_iff]
    exact exists_congr fun shown => and_iff_left ⟨_, rfl⟩

theorem isRuleLack_of_memberLines {members : List Member}
    (h : ∀ member ∈ members, member.rule.IsTargetedRule)
    (failed : memberLines members = .error violation) : IsRuleLack violation := by
  cases members with
  | nil => contradiction
  | cons member rest =>
    rw [memberLines, if_neg (by simp)] at failed
    rcases bind_eq_error_iff.1 failed with noLink | ⟨_, _, never⟩
    · obtain ⟨other, mem, failedLink⟩ := exists_mem_of_mapM_eq_error noLink
      exact isRuleLack_of_memberLink (h other mem) failedLink
    · contradiction

variable {listing : Listing}

theorem exists_collectionLines_iff (h : listing.collection.IsTargetedPackage)
    (members : ∀ member ∈ listing.members, member.rule.IsTargetedRule) :
    (∃ lines, collectionLines listing = .ok lines) ↔
      ∀ member ∈ listing.members, NamedInTopic member := by
  obtain ⟨id, anchored⟩ := h.exists_anchor
  rw [← exists_memberLines_iff members]
  unfold collectionLines
  rw [anchored, exists_bind_eq_ok_iff]
  constructor
  · rintro ⟨_, ⟨⟩, later⟩
    obtain ⟨lines, listed, _⟩ := exists_bind_eq_ok_iff.1 later
    exact ⟨lines, listed⟩
  · rintro ⟨lines, listed⟩
    exact ⟨id, rfl, exists_bind_eq_ok_iff.2 ⟨lines, listed, _, rfl⟩⟩

theorem isRuleLack_of_collectionLines (h : listing.collection.IsTargetedPackage)
    (members : ∀ member ∈ listing.members, member.rule.IsTargetedRule)
    (failed : collectionLines listing = .error violation) : IsRuleLack violation := by
  obtain ⟨id, anchored⟩ := h.exists_anchor
  unfold collectionLines at failed
  rcases bind_eq_error_iff.1 failed with noAnchor | ⟨_, _, later⟩
  · rw [anchored] at noAnchor
    contradiction
  · rcases bind_eq_error_iff.1 later with noMembers | ⟨_, _, never⟩
    · exact isRuleLack_of_memberLines members noMembers
    · contradiction

theorem exists_packageRow (h : part.package.IsTargetedPackage) (qualifier : String) :
    ∃ row, packageRow qualifier part = .ok row := by
  obtain ⟨name, named⟩ := h.exists_packageName
  obtain ⟨id, anchored⟩ := h.exists_anchor
  exact exists_bind_eq_ok_iff.2 ⟨name, named, exists_bind_eq_ok_iff.2 ⟨id, anchored, _, rfl⟩⟩

theorem exists_overviewLines_iff (h : document.Targeted) :
    (∃ lines, overviewLines document = .ok lines) ↔
      ∀ listing ∈ document.collections, ∀ member ∈ listing.members, NamedInTopic member := by
  have blocks : (∃ blocks, document.collections.mapM collectionLines = .ok blocks) ↔
      ∀ listing ∈ document.collections, ∀ member ∈ listing.members, NamedInTopic member := by
    rw [exists_mapM_eq_ok_iff]
    exact forall₂_congr fun listing listed =>
      exists_collectionLines_iff (h.collections listing listed) (h.members listing listed)
  obtain ⟨rows, tabled⟩ := exists_mapM_eq_ok_iff.2 fun part mem =>
    exists_packageRow (h.packages part mem) document.topic.qualifier
  rw [← blocks]
  unfold overviewLines
  rw [exists_bind_eq_ok_iff]
  refine exists_congr fun collections => and_iff_left ?_
  exact exists_bind_eq_ok_iff.2 ⟨rows, tabled, _, rfl⟩

theorem isRuleLack_of_overviewLines (h : document.Targeted)
    (failed : overviewLines document = .error violation) : IsRuleLack violation := by
  unfold overviewLines at failed
  rcases bind_eq_error_iff.1 failed with noBlock | ⟨_, _, later⟩
  · obtain ⟨listing, listed, failedListing⟩ := exists_mem_of_mapM_eq_error noBlock
    exact isRuleLack_of_collectionLines (h.collections listing listed) (h.members listing listed)
      failedListing
  · rcases bind_eq_error_iff.1 later with noRow | ⟨_, _, never⟩
    · obtain ⟨part, mem, failedRow⟩ := exists_mem_of_mapM_eq_error noRow
      obtain ⟨row, tabled⟩ := exists_packageRow (h.packages part mem) document.topic.qualifier
      rw [tabled] at failedRow
      contradiction
    · contradiction

end

/-! ### Documents of extracted modules -/

section

variable {modules : List AnnotatedModule} {membership : Membership} {topic : Topic}

theorem isTargetedPackage_of_mem {module : AnnotatedModule} (extracted : module.IsExtracted)
    {package : Annotation} (mem : package ∈ module.annotations)
    (isPackage : package.isPackage = true) : package.IsTargetedPackage := by
  obtain ⟨segments, ofPackage⟩ := extracted.exists_ofPackage
  refine ⟨isPackage_eq_true_iff.1 isPackage, ?_⟩
  rw [ofPackage.targetPath_package mem isPackage]
  simp

theorem isTargetedRule_of_mem {module : AnnotatedModule} (extracted : module.IsExtracted)
    {rule : Annotation} (mem : rule ∈ module.annotations) (isRule : rule.isPackage = false) :
    rule.IsTargetedRule := by
  obtain ⟨path, content, accepted⟩ := extracted
  exact ⟨isPackage_eq_false_iff.1 isRule, Source.exists_ruleName accepted mem isRule⟩

/-- The target paths in the document of extracted modules are as its pages need them. -/
theorem targeted_build (extracted : ∀ module ∈ modules, module.IsExtracted) (topic : Topic) :
    (Document.build (.ofModules modules) (.ofRegistry (.ofModules modules)) topic).Targeted := by
  have headed : ∀ module ∈ modules, Headed module.annotations :=
    fun module mem => (extracted module mem).headed
  constructor
  case packages =>
    intro part mem
    obtain ⟨module, memModule, inModule, isPackage⟩ := exists_module_of_section mem
    exact isTargetedPackage_of_mem (extracted module memModule) inModule isPackage
  case rules =>
    intro part mem rule inPart
    obtain ⟨module, memModule, inModule, isRule⟩ := exists_module_of_rule headed mem inPart
    exact isTargetedRule_of_mem (extracted module memModule) inModule isRule
  case collections =>
    intro listing listed
    obtain ⟨module, memModule, inModule, isPackage⟩ := exists_module_of_listing listed
    exact isTargetedPackage_of_mem (extracted module memModule) inModule isPackage
  case members =>
    intro listing listed member mem
    obtain ⟨module, memModule, rule, inModule, entry⟩ := exists_module_of_member listed mem
    obtain ⟨scope, target⟩ :=
      isTargetedRule_of_mem (extracted module memModule) inModule entry.isRule
    rw [entry.eq]
    exact ⟨scope, target⟩

end

/-- What the pages of a document need: a short name and a severity of each documented rule, and a short
name of each listed rule that lies in a topic. -/
structure Renderable (document : Document) : Prop where
  rules : ∀ part ∈ document.packages, ∀ rule ∈ part.rules, rule.HasShortName ∧ rule.IsGraded
  members : ∀ listing ∈ document.collections, ∀ member ∈ listing.members, NamedInTopic member

/-- All pages of a topic can be rendered if its rules have short names and severities, and its listed
rules short names. The navigation always can, and a page that cannot be lacks just that. -/
theorem pages_render_iff {modules : List AnnotatedModule}
    (extracted : ∀ module ∈ modules, module.IsExtracted) (topic : Topic)
    (sourceUrl : Option String) :
    let document := Document.build (.ofModules modules) (.ofRegistry (.ofModules modules)) topic
    let pages := renderer sourceUrl
    (((∃ text, pages.nav document = .ok text) ∧ (∃ text, pages.overview document = .ok text) ∧
        ∀ part ∈ document.packages, ∃ text, pages.package document part = .ok text) ↔
      Renderable document) ∧
    (∃ text, pages.nav document = .ok text) ∧
    ∀ failure, (pages.nav document = .error failure ∨ pages.overview document = .error failure ∨
        ∃ part ∈ document.packages, pages.package document part = .error failure) →
      ∃ violation, failure = .contract violation ∧ IsRuleLack violation := by
  intro document pages
  have targeted : document.Targeted := targeted_build extracted topic
  have nav : ∃ text, pages.nav document = .ok text := exists_page_iff.2 (exists_navLines targeted)
  have overview : (∃ text, pages.overview document = .ok text) ↔
      ∀ listing ∈ document.collections, ∀ member ∈ listing.members, NamedInTopic member :=
    exists_page_iff.trans (exists_overviewLines_iff targeted)
  have packages : (∀ part ∈ document.packages, ∃ text, pages.package document part = .ok text) ↔
      ∀ part ∈ document.packages, ∀ rule ∈ part.rules, rule.HasShortName ∧ rule.IsGraded :=
    forall₂_congr fun part mem => exists_page_iff.trans
      (exists_packageLines_iff (targeted.packages part mem) (targeted.rules part mem))
  refine ⟨?_, nav, ?_⟩
  · rw [overview, packages]
    exact ⟨fun h => ⟨h.2.2, h.2.1⟩, fun h => ⟨nav, h.members, h.rules⟩⟩
  · rintro failure (failed | failed | ⟨part, mem, failed⟩)
    · obtain ⟨text, rendered⟩ := nav
      rw [rendered] at failed
      contradiction
    · obtain ⟨violation, noLines, rfl⟩ := page_eq_error_iff.1 failed
      exact ⟨violation, rfl, isRuleLack_of_overviewLines targeted noLines⟩
    · obtain ⟨violation, noLines, rfl⟩ := page_eq_error_iff.1 failed
      exact ⟨violation, rfl, isRuleLack_of_packageLines (targeted.packages part mem)
        (targeted.rules part mem) noLines⟩

/-- A package with a rule that has all it needs, and a collection that lists the rule. -/
def renderedModules : List AnnotatedModule :=
  [ ("policy/task/x.rego", "# METADATA\npackage x\n# METADATA\n" ++
      "# custom: {short_name: a, collections: [m]}\nwarn if x\n"),
    ("policy/task/m.rego", "# METADATA\n# title: m\npackage a.collection.m\n")
  ].filterMap fun entry => AnnotatedModule.ofText? (.ofText entry.1) entry.2

/-- The pages of the topic with the rule and the collection can be rendered. -/
theorem pages_render_iff_rendered :
    ∃ topic ∈ Topic.all,
      let document := Document.build (.ofModules renderedModules)
        (.ofRegistry (.ofModules renderedModules)) topic
      (∀ module ∈ renderedModules, module.IsExtracted) ∧ document.packages.length = 1 ∧
        (document.collections.map (·.members.length)) = [1] ∧ Renderable document ∧
        (∃ text, (renderer none).overview document = .ok text) ∧
        ∀ part ∈ document.packages, ∃ text, (renderer none).package document part = .ok text := by
  have extracted : ∀ module ∈ renderedModules, module.IsExtracted := by
    intro module mem
    obtain ⟨entry, _, accepted⟩ := List.mem_filterMap.1 mem
    exact (AnnotatedModule.isExtractedInPlace_of_ofText? accepted).isExtracted
  have evaluated : (Topic.all.any fun topic =>
      let document := Document.build (.ofModules renderedModules)
        (.ofRegistry (.ofModules renderedModules)) topic
      document.packages.length == 1 && document.collections.map (·.members.length) == [1] &&
        (document.packages.all fun part => part.rules.all fun rule =>
          rule.shortName?.isSome && rule.targetPath.getLast? == some "warn") &&
        document.collections.all fun listing => listing.members.all fun member =>
          member.rule.shortName?.isSome) = true := by
    decide +kernel
  simp only [List.any_eq_true, Bool.and_eq_true, beq_iff_eq, List.all_eq_true,
    Option.isSome_iff_exists, Annotation.exists_shortName?_iff] at evaluated
  obtain ⟨topic, mem, ⟨⟨one, listed⟩, rules⟩, members⟩ := evaluated
  refine ⟨topic, mem, extracted, one, listed, ?_⟩
  have renderable : Renderable (Document.build (.ofModules renderedModules)
      (.ofRegistry (.ofModules renderedModules)) topic) :=
    ⟨fun part memPart rule memRule => (rules part memPart rule memRule).imp_right .inr,
      fun listing memListing member memMember _ => members listing memListing member memMember⟩
  obtain ⟨-, overview, packages⟩ := (pages_render_iff extracted topic none).1.2 renderable
  exact ⟨renderable, overview, packages⟩

end AsciiDoc

end PolicyPages
