import PolicyPages.Proofs.Page.Rendering

/-!
# Segments behind dotted texts

Annotations carry the path of their package as one dotted text, and what is asked of it is asked of the
text: whether two paths are the same, whether `.collection.` stands in it, whether a dotted target ends in
`.deny` or `.warn`. For annotations that are extracted each of these is a question about whole segments
(`dotted_reads_segments`): no segment holds a dot, so the text can be cut into its segments again, and what
stands between two dots is a segment.
-/

namespace PolicyPages

open Text (StandsInside)

/-- What stands between the dots of a text. -/
def betweenDots (text : String) : List String :=
  (text.toList.splitOn '.').map String.ofList

/-! ### Paths of packages -/

namespace Source

variable {segments : List String}

theorem betweenDots_packagePathOf (plain : ∀ segment ∈ segments, IsSegment segment) :
    betweenDots (packagePathOf segments) = rootSegment :: segments := by
  rw [betweenDots, splitOn_packagePath plain, List.map_map]
  exact (List.map_congr_left fun segment _ => String.ofList_toList).trans (List.map_id _)

/-- The path of a package is that of a collection just when a segment in the middle says so. -/
theorem isCollectionPath_packagePathOf_iff (plain : ∀ segment ∈ segments, IsSegment segment) :
    isCollectionPath (packagePathOf segments) = true ↔
      StandsInside "collection" (rootSegment :: segments) := by
  have marked : ".collection.".toList = '.' :: "collection".toList ++ ['.'] := by decide
  rw [isCollectionPath, Text.occursIn_iff, marked, toList_packagePathOf,
    Text.infix_intercalate_iff (by decide) (noDot_of_mem_path plain) (by simp),
    Text.standsInside_map_iff fun _ _ => String.toList_inj.1]

end Source

/-! ### Severities -/

namespace Annotation

variable {package rule note : Annotation}

/-- The severity of a rule is read off the last segment of its target path. -/
structure GradedByName (rule : Annotation) : Prop where
  failure : rule.severity = .ok .failure ↔ rule.targetPath.getLast? = some "deny"
  warning : rule.severity = .ok .warning ↔ rule.targetPath.getLast? = some "warn"
  neither : rule.severity = .error (.noSeverity rule.dottedTarget) ↔
    rule.targetPath.getLast? ≠ some "deny" ∧ rule.targetPath.getLast? ≠ some "warn"

theorem IsTargetedRule.gradedByName (h : rule.IsTargetedRule) : rule.GradedByName := by
  have graded := h.severity_eq
  by_cases denies : rule.targetPath.getLast? = some "deny"
  · rw [if_pos denies] at graded
    constructor <;> simp [graded, denies]
  · rw [if_neg denies] at graded
    by_cases warns : rule.targetPath.getLast? = some "warn"
    · rw [if_pos warns] at graded
      constructor <;> simp [graded, warns]
    · rw [if_neg warns] at graded
      constructor <;> simp [graded, denies, warns]

/-- What the dotted texts of an annotation say of the segments of its package and of its own. -/
structure ReadsSegments (package note : Annotation) : Prop where
  path : betweenDots note.packagePath = package.targetPath
  collection : note.inCollectionModule = true ↔ StandsInside "collection" package.targetPath
  severity : note.isPackage = false → note.GradedByName

end Annotation

namespace Source

open Annotation (ReadsSegments isPackage_eq_false_iff isPackage_eq_true_iff)

variable {segments : List String} {notes : List Annotation} {package note : Annotation}

theorem OfPackage.path_eq (h : OfPackage segments notes) (memPackage : package ∈ notes)
    (isPackage : package.isPackage = true) (mem : note ∈ notes) :
    betweenDots note.packagePath = package.targetPath := by
  rw [h.packagePath_eq mem, betweenDots_packagePathOf h.plain,
    h.targetPath_package memPackage isPackage]

theorem OfPackage.inCollectionModule_iff (h : OfPackage segments notes)
    (memPackage : package ∈ notes) (isPackage : package.isPackage = true) (mem : note ∈ notes) :
    note.inCollectionModule = true ↔ StandsInside "collection" package.targetPath := by
  have path : note.location.packagePath = packagePathOf segments := h.packagePath_eq mem
  unfold Annotation.inCollectionModule
  rw [path, isCollectionPath_packagePathOf_iff h.plain,
    h.targetPath_package memPackage isPackage]

/-- Grouped annotations are headed by that of their package. -/
theorem Grouped.exists_package (grouped : Grouped notes) (mem : note ∈ notes) :
    ∃ package ∈ notes, package.isPackage = true := by
  rcases grouped with rfl | ⟨package, rules, rfl, scope, _⟩
  · contradiction
  · exact ⟨package, List.mem_cons_self, isPackage_eq_true_iff.2 scope⟩

/-- For annotations that are extracted, questions about dotted texts are questions about segments. Each
text has the annotation of a package if it has any, and the dotted path of every annotation is cut into the
segments of that package, which tell whether it is one of a collection; the name of a rule tells its
severity. So two texts have the same package path just when their packages have the same segments. -/
theorem dotted_reads_segments {decode : Decoder} {path : Path} {content : String}
    {notes : List Annotation} (extracted : annotationsWith decode path content = .ok notes) :
    (∀ note ∈ notes, ∃ package ∈ notes, package.isPackage = true) ∧
    (∀ package ∈ notes, package.isPackage = true → ∀ note ∈ notes, ReadsSegments package note) ∧
    ∀ (otherDecode : Decoder) (otherPath : Path) (otherContent : String)
      (others : List Annotation), annotationsWith otherDecode otherPath otherContent = .ok others →
      ∀ package ∈ notes, package.isPackage = true →
      ∀ otherPackage ∈ others, otherPackage.isPackage = true →
      ∀ note ∈ notes, ∀ other ∈ others,
        (note.packagePath = other.packagePath ↔ package.targetPath = otherPackage.targetPath) := by
  obtain ⟨⟨segments, ofPackage⟩, _⟩ := exists_ofPackage extracted
  refine ⟨?_, ?_, ?_⟩
  · intro note mem
    exact ofPackage.grouped.exists_package mem
  · intro package memPackage isPackage note mem
    refine ⟨ofPackage.path_eq memPackage isPackage mem,
      ofPackage.inCollectionModule_iff memPackage isPackage mem, ?_⟩
    intro isRule
    have targeted : note.IsTargetedRule :=
      ⟨isPackage_eq_false_iff.1 isRule, exists_ruleName extracted mem isRule⟩
    exact targeted.gradedByName
  · intro otherDecode otherPath otherContent others otherExtracted package memPackage isPackage
      otherPackage memOther isOther note mem other memNote
    obtain ⟨⟨otherSegments, otherOfPackage⟩, _⟩ := exists_ofPackage otherExtracted
    constructor
    · intro same
      rw [← ofPackage.path_eq memPackage isPackage mem,
        ← otherOfPackage.path_eq memOther isOther memNote, same]
    · intro same
      rw [ofPackage.targetPath_package memPackage isPackage,
        otherOfPackage.targetPath_package memOther isOther] at same
      rw [ofPackage.packagePath_eq mem, otherOfPackage.packagePath_eq memNote, packagePathOf,
        packagePathOf, same]

/-- The two declarations differ in blanks and in a comment. One segment is `collection` among others that
only hold the word, and of the rules only one is called by a name that gives a severity. -/
theorem dotted_reads_segments_sample :
    let content := "# METADATA\npackage policy.collections.collection.b c # .deny\n" ++
      "# METADATA\nwarn if x\n# METADATA\nxdeny if x\n"
    let otherContent := "# METADATA\npackage policy . collections.collection . b c\n"
    ∃ notes others, annotationsWith Metadata.ofText (Path.ofText "a.rego") content = .ok notes ∧
      annotationsWith Metadata.ofText (Path.ofText "b.rego") otherContent = .ok others ∧
      notes.map Annotation.severity = [.error (.noSeverity "data.policy.collections.collection.b c"),
        .ok .warning, .error (.noSeverity "data.policy.collections.collection.b c.xdeny")] ∧
      (∀ package ∈ notes, package.isPackage = true →
        ∀ note ∈ notes, ReadsSegments package note) ∧
      ∀ package ∈ notes, package.isPackage = true → ∀ other ∈ others, other.isPackage = true →
        (package.packagePath = other.packagePath ↔ package.targetPath = other.targetPath) := by
  intro content otherContent
  have evaluated :
      (annotationsWith Metadata.ofText (Path.ofText "a.rego") content).toOption.map
        (·.map Annotation.severity) = some [.error (.noSeverity "data.policy.collections.collection.b c"),
          .ok .warning, .error (.noSeverity "data.policy.collections.collection.b c.xdeny")] ∧
      (annotationsWith Metadata.ofText (Path.ofText "b.rego") otherContent).isOk = true := by
    decide +kernel
  cases extracted : annotationsWith Metadata.ofText (Path.ofText "a.rego") content with
  | error fault =>
    rw [extracted] at evaluated
    exact absurd evaluated.1 (by simp [Except.toOption])
  | ok notes =>
    cases otherExtracted : annotationsWith Metadata.ofText (Path.ofText "b.rego") otherContent with
    | error fault =>
      rw [otherExtracted] at evaluated
      exact absurd evaluated.2 (by simp [Except.isOk, Except.toBool])
    | ok others =>
      rw [extracted] at evaluated
      obtain ⟨-, reads, apart⟩ := dotted_reads_segments extracted
      refine ⟨notes, others, rfl, rfl, Option.some.inj evaluated.1, reads, ?_⟩
      intro package mem isPackage other memOther isOther
      exact apart _ _ _ others otherExtracted package mem isPackage other memOther isOther
        package mem other memOther

end Source

end PolicyPages
