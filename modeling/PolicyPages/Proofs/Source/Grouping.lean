import PolicyPages.Proofs.Source.Derivation

/-!
# Where annotations stop being grouped

Whether annotations are grouped is settled one after the other: one more keeps them grouped just if it is
that of a package and the first, or that of a rule and not the first (`grouped_concat_iff`). So the
beginnings of a grouped list are grouped (`Grouped.of_prefix`), and a list that is not grouped stops being
so at one annotation (`StopsAt`). This is the one that the check reports (`checkGrouping_reports_first`).

The check keeps one bit of what stands before an annotation, and that is whether anything does: before the
first fault, nothing but the annotation of a package is first.
-/

namespace PolicyPages.Source

/-- Up to this annotation a list is grouped, and with it no longer. -/
structure StopsAt (notes before : List Annotation) (note : Annotation) : Prop where
  inside : before ++ [note] <+: notes
  grouped : Grouped before
  stops : ¬ Grouped (before ++ [note])

/-- What is wrong with an annotation that cannot stand where it does. -/
def groupingFault (note : Annotation) : Fault :=
  match note.scope with
  | .package => .secondPackage
  | .rule => .ruleWithoutPackage note.title

section

variable {path : Path} {front before notes rest : List Annotation} {note other : Annotation}

/-! ### One more annotation -/

/-- The annotation of a package comes first, and nothing else does. -/
theorem grouped_concat_iff :
    Grouped (front ++ [note]) ↔ Grouped front ∧ (note.scope = .package ↔ front = []) := by
  cases front with
  | nil =>
    simp only [Grouped, List.nil_append, List.cons_ne_nil, false_or, iff_true, true_or, true_and]
    constructor
    · rintro ⟨package, rules, whole, scope, _⟩
      obtain ⟨rfl, -⟩ := List.cons.inj whole
      exact scope
    · intro scope
      exact ⟨note, [], rfl, scope, by simp⟩
  | cons first others =>
    have isRule : note.scope = .rule ↔ ¬ note.scope = .package := by
      cases note.scope <;> simp
    simp only [Grouped, List.cons_append, List.cons_ne_nil, false_or, iff_false]
    constructor
    · rintro ⟨package, rules, whole, scope, areRules⟩
      obtain ⟨rfl, rfl⟩ := List.cons.inj whole
      obtain ⟨others, last⟩ := List.forall_mem_append.1 areRules
      exact ⟨⟨_, _, rfl, scope, others⟩, isRule.1 (last note List.mem_cons_self)⟩
    · rintro ⟨⟨package, rules, whole, scope, areRules⟩, last⟩
      obtain ⟨rfl, rfl⟩ := List.cons.inj whole
      refine ⟨_, _, rfl, scope, List.forall_mem_append.2 ⟨areRules, ?_⟩⟩
      exact List.forall_mem_singleton.2 (isRule.2 last)

/-- The beginnings of a grouped list are grouped. -/
theorem Grouped.of_prefix (grouped : Grouped notes) (beginning : front <+: notes) :
    Grouped front := by
  rcases grouped with rfl | ⟨package, rules, rfl, scope, areRules⟩
  · exact .inl (List.prefix_nil.1 beginning)
  · cases front with
    | nil => exact .inl rfl
    | cons first others =>
      obtain ⟨rfl, within⟩ := List.cons_prefix_cons.1 beginning
      exact .inr ⟨first, others, rfl, scope, fun rule mem => areRules rule (within.subset mem)⟩

/-! ### The one that is reported -/

/-- A grouped list does not stop being so. -/
theorem Grouped.not_stopsAt (grouped : Grouped notes) : ¬ StopsAt notes before note :=
  fun h => h.stops (grouped.of_prefix h.inside)

/-- Where an annotation cannot follow those before it, the list stops there and nowhere else. -/
theorem stopsAt_iff_of_not_grouped (grouped : Grouped front) (stops : ¬ Grouped (front ++ [note])) :
    StopsAt (front ++ note :: rest) before other ↔ before = front ∧ other = note := by
  have inside : front ++ [note] <+: front ++ note :: rest := ⟨rest, by simp⟩
  constructor
  · intro h
    rcases List.prefix_or_prefix_of_prefix h.inside inside with shorter | longer
    · rcases List.prefix_concat_iff.1 shorter with same | within
      · exact List.append_inj' same rfl |>.imp_right fun last => (List.cons.inj last).1
      · exact absurd (grouped.of_prefix within) h.stops
    · rcases List.prefix_concat_iff.1 longer with same | within
      · exact List.append_inj' same.symm rfl |>.imp_right fun last => (List.cons.inj last).1
      · exact absurd (h.grouped.of_prefix within) stops
  · rintro ⟨rfl, rfl⟩
    exact ⟨inside, grouped, stops⟩

/-- One step of the check: an annotation that may follow those before it is passed. -/
theorem checkGroupingFrom_of_follows (follows : note.scope = .package ↔ front = []) :
    checkGroupingFrom path (!front.isEmpty) (note :: rest) =
      checkGroupingFrom path (!(front ++ [note]).isEmpty) rest := by
  cases front <;> cases scope : note.scope <;> simp_all [checkGroupingFrom]

/-- Any other annotation is reported. -/
theorem checkGroupingFrom_of_not_follows (follows : ¬ (note.scope = .package ↔ front = [])) :
    checkGroupingFrom path (!front.isEmpty) (note :: rest) =
      .error ⟨path, note.location.row, groupingFault note⟩ := by
  cases front <;> cases scope : note.scope <;> simp_all [checkGroupingFrom, groupingFault]

/-- The check goes on until the list stops being grouped. The induction is on what is left of the list;
it is carried by what stands before it being grouped. -/
theorem checkGroupingFrom_eq_error_iff {error : ParseError} (grouped : Grouped front) :
    checkGroupingFrom path (!front.isEmpty) notes = .error error ↔
      ∃ before note, StopsAt (front ++ notes) before note ∧
        error = ⟨path, note.location.row, groupingFault note⟩ := by
  induction notes generalizing front with
  | nil =>
    rw [List.append_nil]
    refine ⟨nofun, ?_⟩
    rintro ⟨before, note, stops, _⟩
    exact absurd stops grouped.not_stopsAt
  | cons note rest ih =>
    by_cases follows : note.scope = .package ↔ front = []
    · rw [checkGroupingFrom_of_follows follows, ih (grouped_concat_iff.2 ⟨grouped, follows⟩),
        List.append_assoc, List.singleton_append]
    · have stops : ¬ Grouped (front ++ [note]) := fun next => follows (grouped_concat_iff.1 next).2
      rw [checkGroupingFrom_of_not_follows follows]
      simp only [stopsAt_iff_of_not_grouped grouped stops, Except.error.injEq]
      constructor
      · rintro rfl
        exact ⟨front, note, ⟨rfl, rfl⟩, rfl⟩
      · rintro ⟨_, _, ⟨rfl, rfl⟩, rfl⟩
        rfl

/-- Just the grouped lists are accepted. Any other is refused at the annotation where it stops being
grouped, with its line and what is wrong with it; and all beginnings of a list that is accepted are
accepted. -/
theorem checkGrouping_reports_first (path : Path) (notes : List Annotation) :
    (checkGrouping path notes = .ok () ↔ Grouped notes) ∧
    (∀ error, checkGrouping path notes = .error error ↔
      ∃ before note, StopsAt notes before note ∧
        error = ⟨path, note.location.row, groupingFault note⟩) ∧
    ∀ front, front <+: notes → checkGrouping path notes = .ok () →
      checkGrouping path front = .ok () := by
  refine ⟨checkGrouping_eq_ok_iff, fun error => ?_, fun front beginning accepted => ?_⟩
  · exact checkGroupingFrom_eq_error_iff (show Grouped [] from .inl rfl)
  · rw [checkGrouping_eq_ok_iff] at accepted ⊢
    exact accepted.of_prefix beginning

end

/-- An annotation on the given line. -/
def noteOn (scope : Scope) (row : Nat) : Annotation :=
  ⟨scope, "Sample", "", [], ["data", "a"], ⟨.ofText "a.rego", row, "data.a"⟩⟩

/-- A second package is reported, and the rule behind it is not looked at. -/
theorem checkGrouping_reports_first_sample :
    let path := Path.ofText "a.rego"
    let front := [noteOn .package 1, noteOn .rule 4]
    let notes := front ++ [noteOn .package 7, noteOn .rule 9]
    let error : ParseError := ⟨path, 7, .secondPackage⟩
    checkGrouping path notes = .error error ∧
      (∃ before note, StopsAt notes before note ∧
        error = ⟨path, note.location.row, groupingFault note⟩) ∧
      [noteOn .package 1] <+: front ∧ checkGrouping path front = .ok () ∧ Grouped front ∧
      checkGrouping path [noteOn .package 1] = .ok () := by
  intro path front notes error
  have refused : checkGrouping path notes = .error error := rfl
  have accepted : checkGrouping path front = .ok () := rfl
  have beginning : [noteOn .package 1] <+: front := ⟨[noteOn .rule 4], rfl⟩
  obtain ⟨-, reported, -⟩ := checkGrouping_reports_first path notes
  obtain ⟨grouped, -, closed⟩ := checkGrouping_reports_first path front
  exact ⟨refused, (reported error).1 refused, beginning, accepted, grouped.1 accepted,
    closed _ beginning accepted⟩

end PolicyPages.Source
