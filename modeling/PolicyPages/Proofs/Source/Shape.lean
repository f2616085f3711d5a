import PolicyPages.Proofs.Source.Derivation
import PolicyPages.Proofs.Source.Items

/-!
# The shape of a module's annotations

What every list of annotations looks like that extraction gives, whatever decodes the bodies of
blocks: it answers the markers of the text one by one, and it is empty or the annotation of a
package followed by those of rules below it (`annotations_shape`).

The derivation carries this: once the package is declared, only rules below it are annotated
(`Annotates.belowPackage`), and before that nothing is, so that the first annotation comes with the
package or after it (`Annotates.fromStart`).
-/

namespace PolicyPages.Source

/-- The annotation of a package with plain segments. -/
structure IsPackageNote (note : Annotation) : Prop where
  scope : note.scope = .package
  target : ∃ segments, note.targetPath = rootSegment :: segments ∧
    ∀ segment ∈ segments, IsSegment segment
  packagePath : note.location.packagePath = ".".intercalate note.targetPath

/-- The annotation of a rule below a package. -/
structure IsRuleNoteOf (package note : Annotation) : Prop where
  scope : note.scope = .rule
  target : ∃ name, IsRuleName name ∧ note.targetPath = package.targetPath ++ [name]
  packagePath : note.location.packagePath = package.location.packagePath

/-! ### Rows and files -/

section

variable {decode : Decoder} {path : Path} {package : Option (List String)}
  {pending : Option Block} {items : List Item} {notes : List Annotation}

theorem Annotates.rows (h : Annotates decode path package pending items notes) :
    notes.map (·.location.row) = pending.toList.map Block.row ++ (blocks items).map Block.row := by
  induction h with
  | done => rfl
  | block _ ih => exact ih
  | package _ ih => exact ih
  | packageNote annotated _ ih =>
    obtain ⟨_, _, _, _, _, rfl⟩ := annotate_eq_ok_iff.1 annotated
    exact congrArg _ ih
  | statement _ ih => exact ih
  | ruleNote _ annotated _ ih =>
    obtain ⟨_, _, _, _, _, rfl⟩ := annotate_eq_ok_iff.1 annotated
    exact congrArg _ ih

theorem Annotates.file (h : Annotates decode path package pending items notes) :
    ∀ note ∈ notes, note.location.file = path := by
  induction h with
  | done => simp
  | block _ ih => exact ih
  | package _ ih => exact ih
  | packageNote annotated _ ih =>
    obtain ⟨_, _, _, _, _, rfl⟩ := annotate_eq_ok_iff.1 annotated
    exact List.forall_mem_cons.2 ⟨rfl, ih⟩
  | statement _ ih => exact ih
  | ruleNote _ annotated _ ih =>
    obtain ⟨_, _, _, _, _, rfl⟩ := annotate_eq_ok_iff.1 annotated
    exact List.forall_mem_cons.2 ⟨rfl, ih⟩

end

/-! ### Packages and rules -/

/-- The annotation of a declaration in the package with the given segments. -/
def IsNoteIn (segments : List String) (note : Annotation) (declaration : Declaration) : Prop :=
  note.scope = declaration.scope ∧ note.targetPath = rootSegment :: segments ++ declaration.tail ∧
    note.location.packagePath = ".".intercalate (rootSegment :: segments)

/-- The annotation of a rule in the package with the given segments. -/
def IsRuleNoteIn (segments : List String) (note : Annotation) : Prop :=
  ∃ name, IsRuleName name ∧ IsNoteIn segments note (.rule name)

section

variable {decode : Decoder} {path : Path} {pending : Option Block} {items : List Item}
  {notes : List Annotation} {segments : List String}

theorem isNoteIn_of_annotate {block : Block} {declaration : Declaration} {note : Annotation}
    (h : annotate decode path (some segments) block declaration = .ok note) :
    IsNoteIn segments note declaration := by
  obtain ⟨_, _, same, _, _, rfl⟩ := annotate_eq_ok_iff.1 h
  cases same
  exact ⟨rfl, rfl, rfl⟩

/-- After the declaration of the package, only rules below it are annotated. -/
theorem Annotates.belowPackage (h : Annotates decode path (some segments) pending items notes) :
    ∀ note ∈ notes, IsRuleNoteIn segments note := by
  generalize declared : some segments = package at h
  induction h with
  | done => simp
  | block _ ih => exact ih declared
  | package => contradiction
  | packageNote => contradiction
  | statement _ ih => exact ih declared
  | ruleNote found annotated _ ih =>
    subst declared
    have named := (ruleName?_eq_some_iff.1 found).2
    exact List.forall_mem_cons.2 ⟨⟨_, named, isNoteIn_of_annotate annotated⟩, ih rfl⟩

/-- Before the declaration of the package, nothing is annotated. -/
theorem Annotates.fromStart (h : Annotates decode path none pending items notes) :
    notes = [] ∨ ∃ row segments first rules, .package row segments ∈ items ∧
      notes = first :: rules ∧
      (IsNoteIn segments first .package ∨ IsRuleNoteIn segments first) ∧
      ∀ rule ∈ rules, IsRuleNoteIn segments rule := by
  generalize declared : none = package at h
  induction h with
  | done => exact .inl rfl
  | block _ ih =>
    refine (ih declared).imp_right ?_
    rintro ⟨row, segments, first, rules, mem, rest⟩
    exact ⟨row, segments, first, rules, List.mem_cons_of_mem _ mem, rest⟩
  | @package row segments rest notes below =>
    cases notes with
    | nil => exact .inl rfl
    | cons first rules =>
      obtain ⟨firstIn, rulesIn⟩ := List.forall_mem_cons.1 below.belowPackage
      exact .inr ⟨row, segments, first, rules, List.mem_cons_self, rfl, .inr firstIn, rulesIn⟩
  | @packageNote block row segments rest note notes annotated below =>
    exact .inr ⟨row, segments, note, notes, List.mem_cons_self, rfl,
      .inl (isNoteIn_of_annotate annotated), below.belowPackage⟩
  | statement _ ih =>
    refine (ih declared).imp_right ?_
    rintro ⟨row, segments, first, rules, mem, rest⟩
    exact ⟨row, segments, first, rules, List.mem_cons_of_mem _ mem, rest⟩
  | ruleNote _ annotated =>
    subst declared
    obtain ⟨_, _, same, _⟩ := annotate_eq_ok_iff.1 annotated
    contradiction

end

/-- The annotations of a text stand for its markers in order, and all of them belong to one package:
there are none, or there is that of the package, followed by those of rules below it. -/
theorem annotations_shape {decode : Decoder} {path : Path} {content : String}
    {notes : List Annotation} (h : annotationsWith decode path content = .ok notes) :
    notes.map (·.location.row) = markerRows content ∧
      (∀ note ∈ notes, note.location.file = path) ∧
      (notes = [] ∨ ∃ package rules, notes = package :: rules ∧ IsPackageNote package ∧
        ∀ rule ∈ rules, IsRuleNoteOf package rule) := by
  obtain ⟨derived, grouped⟩ := annotationsWith_eq_ok_iff.1 h
  refine ⟨?_, derived.file, ?_⟩
  · rw [derived.rows, markerRows, ← rows_blocks_itemsFrom]
    rfl
  · rcases derived.fromStart with rfl | ⟨row, segments, first, rules, mem, rfl, firstIn, rulesIn⟩
    · exact .inl rfl
    · have isPackage : first.scope = .package := by
        rcases grouped with empty | ⟨_, _, eq, scope, _⟩
        · contradiction
        · cases eq
          exact scope
      obtain ⟨scope, target, packagePath⟩ : IsNoteIn segments first .package := by
        rcases firstIn with firstIn | ⟨name, _, isRule, _⟩
        · exact firstIn
        · rw [isPackage] at isRule
          contradiction
      rw [Declaration.tail, List.append_nil] at target
      refine .inr ⟨first, rules, rfl, ⟨scope, ?_, ?_⟩, fun rule memRules => ?_⟩
      · exact ⟨segments, target, isSegment_of_mem_itemsFrom mem⟩
      · rw [packagePath, target]
      · obtain ⟨name, named, ruleScope, ruleTarget, rulePath⟩ := rulesIn rule memRules
        exact ⟨ruleScope, ⟨name, named, by rw [ruleTarget, target, Declaration.tail]⟩,
          by rw [rulePath, packagePath]⟩

/-- The word has to stand alone: it stands on five lines here, and two of them are markers. -/
theorem annotations_shape_twoMarkers :
    let content := "# no METADATA\n #METADATA\n# title: A\npackage a.b # METADATA\n\n" ++
      "# METADATA\n# # METADATA\ndefault allow := false\n"
    ∃ notes, annotationsWith Metadata.ofText (Path.ofText "a.rego") content = .ok notes ∧
      notes.map (·.location.row) = [2, 6] ∧
      (∀ note ∈ notes, note.location.file = Path.ofText "a.rego") ∧
      (notes = [] ∨ ∃ package rules, notes = package :: rules ∧ IsPackageNote package ∧
        ∀ rule ∈ rules, IsRuleNoteOf package rule) := by
  intro content
  have isOk : (annotationsWith Metadata.ofText (Path.ofText "a.rego") content).isOk = true := by
    decide +kernel
  have markers : markerRows content = [2, 6] := by decide +kernel
  cases accepted : annotationsWith Metadata.ofText (Path.ofText "a.rego") content with
  | error fault =>
    rw [accepted] at isOk
    contradiction
  | ok notes =>
    obtain ⟨rows, files, grouped⟩ := annotations_shape accepted
    exact ⟨notes, rfl, rows.trans markers, files, grouped⟩

end PolicyPages.Source
