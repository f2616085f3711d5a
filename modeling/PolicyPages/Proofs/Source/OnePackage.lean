import PolicyPages.Proofs.Document.Openings
import PolicyPages.Proofs.Source.Shape
import PolicyPages.Registry

/-!
# The one package of a module

All annotations of a text belong to the package that the text declares: `OfPackage` says so for given
segments, and `exists_ofPackage` that extraction gives no other lists. The dotted path of a package
determines its segments, because none of them holds a dot (`splitOn_packagePath`), so annotations of
two modules with one package path agree in their segments too (`OfPackage.segments_eq`).

`AnnotatedModule.IsExtracted` and `IsExtractedInPlace` are the modules that hold what was extracted,
the latter under the path that it was extracted with.
-/

namespace PolicyPages.Source

open Annotation (isPackage_eq_false_iff isPackage_eq_true_iff packagePath)

/-! ### Paths of packages -/

/-- The dotted path of the package with the given segments. -/
def packagePathOf (segments : List String) : String :=
  ".".intercalate (rootSegment :: segments)

section

variable {segments others : List String}

theorem toList_packagePathOf : (packagePathOf segments).toList =
    ['.'].intercalate ((rootSegment :: segments).map String.toList) := by
  rw [packagePathOf, String.toList_intercalate]
  rfl

theorem noDot_of_mem_path (plain : ∀ segment ∈ segments, IsSegment segment) :
    ∀ piece ∈ (rootSegment :: segments).map String.toList, '.' ∉ piece := by
  have noDot : ∀ segment ∈ rootSegment :: segments, '.' ∉ segment.toList :=
    List.forall_mem_cons.2 ⟨by decide, fun segment mem => (plain segment mem).noDot⟩
  simpa using noDot

/-- The dots of a path stand between its segments and nowhere else. -/
theorem splitOn_packagePath (plain : ∀ segment ∈ segments, IsSegment segment) :
    (packagePathOf segments).toList.splitOn '.' = (rootSegment :: segments).map String.toList := by
  rw [toList_packagePathOf]
  exact List.splitOn_intercalate '.' (noDot_of_mem_path plain) (by simp)

theorem packagePathOf_inj (plain : ∀ segment ∈ segments, IsSegment segment)
    (plain' : ∀ segment ∈ others, IsSegment segment)
    (same : packagePathOf segments = packagePathOf others) : segments = others := by
  have pieces := splitOn_packagePath plain
  rw [same, splitOn_packagePath plain'] at pieces
  have whole := (List.map_injective_iff.2 fun _ _ => String.toList_inj.1) pieces
  exact (List.cons.inj whole).2.symm

end

/-! ### Annotations of one package -/

/-- Annotations of the package with the given segments: none, or that of the package itself and then
only those of its rules. -/
structure OfPackage (segments : List String) (notes : List Annotation) : Prop where
  plain : ∀ segment ∈ segments, IsSegment segment
  grouped : Grouped notes
  declared : ∀ note ∈ notes, ∃ declaration, IsNoteIn segments note declaration

/-- The annotations of a text belong to one package. -/
theorem exists_ofPackage {decode : Decoder} {path : Path} {content : String}
    {notes : List Annotation} (h : annotationsWith decode path content = .ok notes) :
    (∃ segments, OfPackage segments notes) ∧ ∀ note ∈ notes, note.location.file = path := by
  obtain ⟨derived, grouped⟩ := annotationsWith_eq_ok_iff.1 h
  refine ⟨?_, derived.file⟩
  rcases derived.fromStart with rfl | ⟨row, segments, first, rules, mem, rfl, firstIn, rulesIn⟩
  · exact ⟨[], by simp, grouped, by simp⟩
  · have isRule : ∀ note, IsRuleNoteIn segments note →
        ∃ declaration, IsNoteIn segments note declaration :=
      fun note ⟨name, _, declared⟩ => ⟨.rule name, declared⟩
    refine ⟨segments, isSegment_of_mem_itemsFrom mem, grouped, List.forall_mem_cons.2 ⟨?_, ?_⟩⟩
    · rcases firstIn with declared | below
      · exact ⟨.package, declared⟩
      · exact isRule first below
    · exact fun note memRules => isRule note (rulesIn note memRules)

/-- The target path of a rule that is extracted ends in a plain name. -/
theorem exists_ruleName {decode : Decoder} {path : Path} {content : String}
    {notes : List Annotation} (h : annotationsWith decode path content = .ok notes)
    {rule : Annotation} (mem : rule ∈ notes) (isRule : rule.isPackage = false) :
    ∃ owner name, owner ≠ [] ∧ rule.targetPath = owner ++ [name] ∧ IsRuleName name := by
  have named : ∀ segments, IsRuleNoteIn segments rule →
      ∃ owner name, owner ≠ [] ∧ rule.targetPath = owner ++ [name] ∧ IsRuleName name :=
    fun segments ⟨name, isName, _, target, _⟩ =>
      ⟨rootSegment :: segments, name, by simp, target, isName⟩
  obtain ⟨derived, _⟩ := annotationsWith_eq_ok_iff.1 h
  rcases derived.fromStart with rfl | ⟨row, segments, first, rules, _, rfl, firstIn, rulesIn⟩
  · contradiction
  · rcases List.mem_cons.1 mem with rfl | later
    · rcases firstIn with ⟨scope, _⟩ | below
      · rw [isPackage_eq_false_iff.1 isRule] at scope
        contradiction
      · exact named segments below
    · exact named segments (rulesIn rule later)

namespace OfPackage

variable {segments others : List String} {notes otherNotes : List Annotation}
  {note other : Annotation}

theorem packagePath_eq (h : OfPackage segments notes) (mem : note ∈ notes) :
    note.packagePath = packagePathOf segments := by
  obtain ⟨_, _, _, path⟩ := h.declared note mem
  exact path

/-- Lists with an annotation of one path each are of one package. -/
theorem segments_eq (h : OfPackage segments notes) (h' : OfPackage others otherNotes)
    (mem : note ∈ notes) (mem' : other ∈ otherNotes)
    (same : note.packagePath = other.packagePath) : segments = others := by
  rw [h.packagePath_eq mem, h'.packagePath_eq mem'] at same
  exact packagePathOf_inj h.plain h'.plain same

theorem targetPath_package (h : OfPackage segments notes) (mem : note ∈ notes)
    (isPackage : note.isPackage = true) : note.targetPath = rootSegment :: segments := by
  obtain ⟨declaration, scope, target, _⟩ := h.declared note mem
  have scopePackage : note.scope = .package := isPackage_eq_true_iff.1 isPackage
  cases declaration with
  | package => rw [target, Declaration.tail, List.append_nil]
  | rule name =>
    rw [scopePackage] at scope
    contradiction

theorem targetPath_rule (h : OfPackage segments notes) (mem : note ∈ notes)
    (isRule : note.isPackage = false) :
    ∃ name, note.targetPath = rootSegment :: segments ++ [name] := by
  obtain ⟨declaration, scope, target, _⟩ := h.declared note mem
  cases declaration with
  | package =>
    rw [isPackage_eq_false_iff.1 isRule] at scope
    contradiction
  | rule name => exact ⟨name, target⟩

end OfPackage

end Source

/-! ### Extracted modules -/

namespace AnnotatedModule

/-- The annotations of the module are those of some text. -/
def IsExtracted (module : AnnotatedModule) : Prop :=
  ∃ path content, Source.annotations path content = .ok module.annotations

/-- The annotations of the module are those of some text at its own path. -/
def IsExtractedInPlace (module : AnnotatedModule) : Prop :=
  ∃ content, Source.annotations module.file content = .ok module.annotations

/-- The module with a text, if the text is accepted. -/
def ofText? (file : Path) (content : String) : Option AnnotatedModule :=
  match Source.annotations file content with
  | .ok annotations => some ⟨.ofText ".", file, annotations⟩
  | .error _ => none

variable {module : AnnotatedModule}

theorem isExtractedInPlace_of_ofText? {file : Path} {content : String}
    (h : ofText? file content = some module) : module.IsExtractedInPlace := by
  rw [ofText?] at h
  cases extracted : Source.annotations file content with
  | error failure =>
    rw [extracted] at h
    contradiction
  | ok annotations =>
    rw [extracted] at h
    cases h
    exact ⟨content, extracted⟩

theorem IsExtractedInPlace.isExtracted (h : module.IsExtractedInPlace) : module.IsExtracted :=
  ⟨module.file, h⟩

theorem IsExtracted.exists_ofPackage (h : module.IsExtracted) :
    ∃ segments, Source.OfPackage segments module.annotations := by
  obtain ⟨path, content, extracted⟩ := h
  exact (Source.exists_ofPackage extracted).1

theorem IsExtractedInPlace.file_eq (h : module.IsExtractedInPlace) {note : Annotation}
    (mem : note ∈ module.annotations) : note.location.file = module.file := by
  obtain ⟨content, extracted⟩ := h
  exact (Source.exists_ofPackage extracted).2 note mem

end AnnotatedModule

end PolicyPages
