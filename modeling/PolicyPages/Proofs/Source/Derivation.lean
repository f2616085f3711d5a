import PolicyPages.Proofs.Source.LineKind

/-!
# Deriving the annotations of a module

`Annotates` is the relation behind `annotateItems`: one constructor for each step that does not
fail, so that a property of all annotations is an induction on their derivation.

* `annotate_eq_ok_iff` says when one block is annotated and what its annotation is (`described`);
  `annotate_error` says where its fault lies.
* `annotateItems_eq_ok_iff` makes the function and the relation the same;
  `annotateItems_error` places every fault on a block or a statement.
* `checkGrouping_eq_ok_iff` says which lists of annotations are grouped.
-/

namespace PolicyPages.Source

/-! ### One block -/

/-- The annotation of a block whose body has been decoded. -/
def described (path : Path) (segments : List String) (block : Block) (declaration : Declaration)
    (metadata : Metadata) : Annotation where
  scope := declaration.scope
  title := metadata.title.getD ""
  description := metadata.description.getD ""
  custom := metadata.custom
  targetPath := rootSegment :: segments ++ declaration.tail
  location := {
    file := path
    row := block.row
    packagePath := ".".intercalate (rootSegment :: segments) }

/-- A written scope names that of the declaration. -/
def NamesScope (declaration : Declaration) (scope : Option String) : Prop :=
  ∀ keyword ∈ scope, keyword = declaration.scope.keyword

instance (declaration : Declaration) (scope : Option String) :
    Decidable (NamesScope declaration scope) :=
  inferInstanceAs (Decidable (∀ keyword ∈ scope, keyword = declaration.scope.keyword))

theorem checkScope_eq_ok_iff {declaration : Declaration} {written : Option String} {scope : Scope} :
    checkScope declaration written = .ok scope ↔
      scope = declaration.scope ∧ NamesScope declaration written := by
  cases written with
  | none => simp [checkScope, NamesScope, eq_comm]
  | some keyword =>
    cases known : Scope.ofKeyword? keyword with
    | none =>
      have : keyword ≠ declaration.scope.keyword := fun eq => by
        rw [Scope.ofKeyword?_eq_some_iff.2 eq] at known
        contradiction
      simp [checkScope, known, NamesScope, this]
    | some found =>
      obtain rfl := Scope.ofKeyword?_eq_some_iff.1 known
      by_cases same : found = declaration.scope
      · subst same
        simp [checkScope, known, NamesScope, eq_comm]
      · have : found.keyword ≠ declaration.scope.keyword := fun eq => by
          rw [Scope.ofKeyword?_eq_some_iff.2 eq] at known
          exact same (Option.some.inj known).symm
        simp [checkScope, known, same, NamesScope, this]

section

variable {decode : Decoder} {path : Path} {package : Option (List String)} {block : Block}
  {declaration : Declaration}

theorem annotate_eq_ok_iff {note : Annotation} :
    annotate decode path package block declaration = .ok note ↔
      ∃ segments metadata, package = some segments ∧ decode block.body = .ok metadata ∧
        NamesScope declaration metadata.scope ∧
        note = described path segments block declaration metadata := by
  unfold annotate
  cases decoded : decode block.body with
  | error fault => simp
  | ok metadata =>
    cases checked : checkScope declaration metadata.scope with
    | error fault =>
      have : ¬ NamesScope declaration metadata.scope := fun names => by
        rw [checkScope_eq_ok_iff.2 ⟨rfl, names⟩] at checked
        contradiction
      simp [checked, this]
    | ok scope =>
      obtain ⟨rfl, names⟩ := checkScope_eq_ok_iff.1 checked
      cases package with
      | none => simp [checked]
      | some segments => simp [checked, names, described, eq_comm]

theorem annotate_error {error : ParseError}
    (h : annotate decode path package block declaration = .error error) :
    error.path = path ∧ error.line = block.row := by
  unfold annotate at h
  simp only at h
  split at h
  · cases h
    exact ⟨rfl, rfl⟩
  · split at h <;> cases h <;> exact ⟨rfl, rfl⟩

end

/-! ### A whole module -/

/-- The declared package, a block that waits for its statement, and the items to come derive the
annotations. -/
inductive Annotates (decode : Decoder) (path : Path) :
    Option (List String) → Option Block → List Item → List Annotation → Prop where
  | done {package} : Annotates decode path package none [] []
  | block {package block rest notes} : Annotates decode path package (some block) rest notes →
      Annotates decode path package none (.block block :: rest) notes
  | package {row segments rest notes} : Annotates decode path (some segments) none rest notes →
      Annotates decode path none none (.package row segments :: rest) notes
  | packageNote {block row segments rest note notes} :
      annotate decode path (some segments) block .package = .ok note →
      Annotates decode path (some segments) none rest notes →
      Annotates decode path none (some block) (.package row segments :: rest) (note :: notes)
  | statement {package row text rest notes} : Annotates decode path package none rest notes →
      Annotates decode path package none (.statement row text :: rest) notes
  | ruleNote {package block row text rest name note notes} : ruleName? text = some name →
      annotate decode path package block (.rule name) = .ok note →
      Annotates decode path package none rest notes →
      Annotates decode path package (some block) (.statement row text :: rest) (note :: notes)

section

variable {decode : Decoder} {path : Path} {package : Option (List String)}
  {pending : Option Block} {items : List Item}

/-- A first note and the others, each of which may fail. -/
private theorem cons_eq_ok_iff {ε α : Type} {first : Except ε α} {others : Except ε (List α)}
    {all : List α} :
    (do let note ← first; let notes ← others; return note :: notes) = .ok all ↔
      ∃ note notes, first = .ok note ∧ others = .ok notes ∧ all = note :: notes := by
  cases first with
  | error fault => simp [bind, Except.bind]
  | ok note =>
    cases others with
    | error fault => simp [bind, Except.bind]
    | ok notes => simp [bind, Except.bind, pure, Except.pure, eq_comm]

private theorem cons_eq_error {ε α : Type} {first : Except ε α} {others : Except ε (List α)}
    {fault : ε}
    (h : (do let note ← first; let notes ← others; return note :: notes) = .error fault) :
    first = .error fault ∨ others = .error fault := by
  cases first with
  | error _ => exact .inl (by simpa [bind, Except.bind] using h)
  | ok note =>
    cases others with
    | error _ => exact .inr (by simpa [bind, Except.bind] using h)
    | ok notes => simp [bind, Except.bind, pure, Except.pure] at h

theorem Annotates.of_eq_ok {notes : List Annotation}
    (h : annotateItems decode path package pending items = .ok notes) :
    Annotates decode path package pending items notes := by
  fun_induction annotateItems decode path package pending items generalizing notes with
  | case1 package =>
    cases h
    exact .done
  | case2 | case3 | case5 | case9 => contradiction
  | case4 package block rest ih => exact .block (ih h)
  | case6 row segments rest ih => exact .package (ih h)
  | case7 block row segments rest ih =>
    obtain ⟨note, others, annotated, derived, rfl⟩ := cons_eq_ok_iff.1 h
    exact .packageNote annotated (ih derived)
  | case8 package row text rest ih => exact .statement (ih h)
  | case10 package block row text rest name found ih =>
    obtain ⟨note, others, annotated, derived, rfl⟩ := cons_eq_ok_iff.1 h
    exact .ruleNote found annotated (ih derived)

theorem Annotates.eq_ok {notes : List Annotation}
    (h : Annotates decode path package pending items notes) :
    annotateItems decode path package pending items = .ok notes := by
  induction h with
  | done => simp [annotateItems]
  | block _ ih => simpa [annotateItems] using ih
  | package _ ih => simpa [annotateItems] using ih
  | packageNote annotated _ ih =>
    simpa only [annotateItems] using cons_eq_ok_iff.2 ⟨_, _, annotated, ih, rfl⟩
  | statement _ ih => simpa [annotateItems] using ih
  | ruleNote found annotated _ ih =>
    simpa only [annotateItems, found] using cons_eq_ok_iff.2 ⟨_, _, annotated, ih, rfl⟩

theorem annotateItems_eq_ok_iff {notes : List Annotation} :
    annotateItems decode path package pending items = .ok notes ↔
      Annotates decode path package pending items notes :=
  ⟨.of_eq_ok, Annotates.eq_ok⟩

namespace Annotates

variable {notes : List Annotation} {block next : Block} {row : Nat} {text : List Char}
  {segments others : List String} {rest : List Item}

theorem nil_iff : Annotates decode path package none [] notes ↔ notes = [] := by
  constructor
  · intro h
    cases h
    rfl
  · rintro rfl
    exact .done

theorem not_nil : ¬ Annotates decode path package (some block) [] notes := by
  rintro ⟨⟩

theorem block_iff :
    Annotates decode path package none (.block block :: rest) notes ↔
      Annotates decode path package (some block) rest notes := by
  constructor
  · intro h
    cases h with
    | block later => exact later
  · exact .block

theorem not_block : ¬ Annotates decode path package (some block) (.block next :: rest) notes := by
  rintro ⟨⟩

theorem package_iff :
    Annotates decode path none none (.package row segments :: rest) notes ↔
      Annotates decode path (some segments) none rest notes := by
  constructor
  · intro h
    cases h with
    | package later => exact later
  · exact .package

theorem not_package :
    ¬ Annotates decode path (some segments) pending (.package row others :: rest) notes := by
  rintro ⟨⟩

theorem packageNote_iff :
    Annotates decode path none (some block) (.package row segments :: rest) notes ↔
      ∃ note later, annotate decode path (some segments) block .package = .ok note ∧
        Annotates decode path (some segments) none rest later ∧ notes = note :: later := by
  constructor
  · intro h
    cases h with
    | packageNote annotated derived => exact ⟨_, _, annotated, derived, rfl⟩
  · rintro ⟨note, later, annotated, derived, rfl⟩
    exact .packageNote annotated derived

theorem statement_iff :
    Annotates decode path package none (.statement row text :: rest) notes ↔
      Annotates decode path package none rest notes := by
  constructor
  · intro h
    cases h with
    | statement later => exact later
  · exact .statement

theorem ruleNote_iff :
    Annotates decode path package (some block) (.statement row text :: rest) notes ↔
      ∃ name note later, ruleName? text = some name ∧
        annotate decode path package block (.rule name) = .ok note ∧
        Annotates decode path package none rest later ∧ notes = note :: later := by
  constructor
  · intro h
    cases h with
    | ruleNote found annotated derived => exact ⟨_, _, _, found, annotated, derived, rfl⟩
  · rintro ⟨name, note, later, found, annotated, derived, rfl⟩
    exact .ruleNote found annotated derived

end Annotates

/-- A fault lies on the block that waits or on a line to come. -/
theorem annotateItems_error {error : ParseError}
    (h : annotateItems decode path package pending items = .error error) :
    error.path = path ∧ error.line ∈ pending.toList.map Block.row ++ items.map Item.row := by
  fun_induction annotateItems decode path package pending items with
  | case1 => contradiction
  | case2 | case3 | case5 | case9 =>
    cases h
    simp [Item.row]
  | case4 package block rest ih => exact ih h
  | case6 row segments rest ih =>
    obtain ⟨samePath, later⟩ := ih h
    exact ⟨samePath, List.mem_cons_of_mem _ later⟩
  | case7 block row segments rest ih =>
    rcases cons_eq_error h with fault | fault
    · simp [annotate_error fault]
    · obtain ⟨samePath, later⟩ := ih fault
      exact ⟨samePath, List.mem_cons_of_mem _ (List.mem_cons_of_mem _ later)⟩
  | case8 package row text rest ih =>
    obtain ⟨samePath, later⟩ := ih h
    exact ⟨samePath, List.mem_cons_of_mem _ later⟩
  | case10 package block row text rest name found ih =>
    rcases cons_eq_error h with fault | fault
    · simp [annotate_error fault]
    · obtain ⟨samePath, later⟩ := ih fault
      exact ⟨samePath, List.mem_cons_of_mem _ (List.mem_cons_of_mem _ later)⟩

end

/-! ### Grouping -/

/-- No annotation, or that of a package and then only those of rules. -/
def Grouped (notes : List Annotation) : Prop :=
  notes = [] ∨ ∃ package rules, notes = package :: rules ∧ package.scope = .package ∧
    ∀ rule ∈ rules, rule.scope = .rule

theorem checkGroupingFrom_true_eq_ok_iff {path : Path} {notes : List Annotation} :
    checkGroupingFrom path true notes = .ok () ↔ ∀ note ∈ notes, note.scope = .rule := by
  induction notes with
  | nil => simp [checkGroupingFrom]
  | cons note rest ih =>
    cases scope : note.scope with
    | package => simp [checkGroupingFrom, scope]
    | rule => simp [checkGroupingFrom, scope, ih]

theorem checkGrouping_eq_ok_iff {path : Path} {notes : List Annotation} :
    checkGrouping path notes = .ok () ↔ Grouped notes := by
  cases notes with
  | nil => simp [checkGrouping, checkGroupingFrom, Grouped]
  | cons note rest =>
    cases scope : note.scope with
    | package =>
      have first : checkGrouping path (note :: rest) = checkGroupingFrom path true rest := by
        simp [checkGrouping, checkGroupingFrom, scope]
      rw [first, checkGroupingFrom_true_eq_ok_iff]
      constructor
      · intro rules
        exact .inr ⟨note, rest, rfl, scope, rules⟩
      · rintro (empty | ⟨_, _, eq, _, rules⟩)
        · contradiction
        · cases eq
          exact rules
    | rule => simp [checkGrouping, checkGroupingFrom, scope, Grouped]

/-- A fault of the grouping lies on an annotation. -/
theorem checkGroupingFrom_error {path : Path} {hasPackage : Bool} {notes : List Annotation}
    {error : ParseError} (h : checkGroupingFrom path hasPackage notes = .error error) :
    error.path = path ∧ error.line ∈ notes.map (·.location.row) := by
  fun_induction checkGroupingFrom path hasPackage notes with
  | case1 => contradiction
  | case2 | case3 =>
    cases h
    simp
  | case4 hasPackage note rest _ _ ih =>
    obtain ⟨samePath, later⟩ := ih h
    exact ⟨samePath, List.mem_cons_of_mem _ later⟩

/-! ### The text of a module -/

theorem annotationsWith_eq_ok_iff {decode : Decoder} {path : Path} {content : String}
    {notes : List Annotation} :
    annotationsWith decode path content = .ok notes ↔
      Annotates decode path none none (items content.toList) notes ∧ Grouped notes := by
  rw [← annotateItems_eq_ok_iff, ← @checkGrouping_eq_ok_iff path]
  unfold annotationsWith
  cases annotateItems decode path none none (items content.toList) with
  | error fault => simp [bind, Except.bind]
  | ok found =>
    cases checked : checkGrouping path found with
    | error fault =>
      have : found = notes → checkGrouping path notes ≠ .ok () := by
        rintro rfl eq
        simp [eq] at checked
      simpa [bind, Except.bind, checked] using this
    | ok _ =>
      have : found = notes → checkGrouping path notes = .ok () := by
        rintro rfl
        exact checked
      simpa [bind, Except.bind, pure, Except.pure, checked] using this

theorem annotationsWith_error {decode : Decoder} {path : Path} {content : String}
    {error : ParseError} (h : annotationsWith decode path content = .error error) :
    annotateItems decode path none none (items content.toList) = .error error ∨
      ∃ notes, annotateItems decode path none none (items content.toList) = .ok notes ∧
        checkGrouping path notes = .error error := by
  unfold annotationsWith at h
  cases derived : annotateItems decode path none none (items content.toList) with
  | error fault => simpa [bind, Except.bind, derived] using h
  | ok notes =>
    cases checked : checkGrouping path notes with
    | error fault =>
      simp only [bind, Except.bind, derived, checked] at h
      cases h
      exact .inr ⟨notes, rfl, checked⟩
    | ok _ => simp [bind, Except.bind, pure, Except.pure, derived, checked] at h

end PolicyPages.Source
