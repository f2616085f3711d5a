import PolicyPages.Discovery
import PolicyPages.Proofs.Sequencing

/-!
# What discovery finds

Discovery succeeds just when no walk stops, and then finds the modules that the walks visit, root by
root (`modules_eq_ok_iff`). Otherwise it fails as the first walk that stops (`modules_eq_error_iff`).
-/

namespace PolicyPages.Discovery

open Files (Tree Visit WalkError)

variable {tree : Tree} {settings : DiscoverySettings} {root : Path} {roots : List Path}
  {visit : Visit} {found : FoundModule} {all : List FoundModule} {failure : Failure}

/-- The modules that the walk from a root visits. -/
def modulesBelow (tree : Tree) (settings : DiscoverySettings) (root : Path) : List FoundModule :=
  (tree.walk root).visits.filterMap (moduleAt? settings root)

/-- A module is a file whose name is that of a rule source. -/
theorem moduleAt?_eq_some_iff :
    moduleAt? settings root visit = some found ↔
      visit.isFile = true ∧
        (∃ name, Path.text? ⟨nameOf visit⟩ = some name ∧ isRuleSource settings name = true) ∧
        found = ⟨root, pathBelow visit⟩ := by
  unfold moduleAt?
  cases visit.isFile with
  | false => simp
  | true =>
    cases Path.text? ⟨nameOf visit⟩ with
    | none => simp
    | some name =>
      cases isSource : isRuleSource settings name with
      | false => simp [isSource]
      | true =>
        simp only [isSource, if_true, Option.some.injEq, exists_eq_left', true_and]
        exact eq_comm

theorem modules_cons_of_stop {error : WalkError} (stop : (tree.walk root).stop = some error) :
    modules tree settings (root :: roots) = .error (stopFailure error) := by
  rw [modules]
  simp only [stop]

theorem modules_cons_of_going (going : (tree.walk root).stop = none) :
    modules tree settings (root :: roots) =
      (modules tree settings roots).map (modulesBelow tree settings root ++ ·) := by
  rw [modules]
  simp only [going]
  cases modules tree settings roots <;> rfl

theorem modules_eq_ok_iff :
    modules tree settings roots = .ok all ↔
      (∀ root ∈ roots, (tree.walk root).stop = none) ∧
        all = roots.flatMap (modulesBelow tree settings) := by
  induction roots generalizing all with
  | nil => simp [modules, eq_comm]
  | cons root rest ih =>
    cases stop : (tree.walk root).stop with
    | some error => simp [modules_cons_of_stop stop, stop]
    | none =>
      rw [modules_cons_of_going stop, List.flatMap_cons, List.forall_mem_cons]
      constructor
      · intro succeeds
        cases others : modules tree settings rest with
        | error failure => simp [others, Except.map] at succeeds
        | ok later =>
          obtain ⟨goOn, rfl⟩ := ih.1 others
          rw [others] at succeeds
          exact ⟨⟨stop, goOn⟩, (Except.ok.inj succeeds).symm⟩
      · rintro ⟨⟨-, goOn⟩, rfl⟩
        rw [ih.2 ⟨goOn, rfl⟩]
        rfl

theorem modules_eq_error_iff :
    modules tree settings roots = .error failure ↔
      ∃ before root after error, roots = before ++ root :: after ∧
        (∀ root ∈ before, (tree.walk root).stop = none) ∧
        (tree.walk root).stop = some error ∧ failure = stopFailure error := by
  induction roots with
  | nil => simp [modules]
  | cons root rest ih =>
    cases stop : (tree.walk root).stop with
    | some error =>
      rw [modules_cons_of_stop stop]
      constructor
      · intro fails
        exact ⟨[], root, rest, error, rfl, by simp, stop, (Except.error.inj fails).symm⟩
      · rintro ⟨before, first, after, other, whole, goOn, stops, rfl⟩
        cases before with
        | nil =>
          obtain ⟨rfl, rfl⟩ := List.cons.inj whole
          rw [Option.some.inj (stop.symm.trans stops)]
        | cons head tail =>
          obtain ⟨rfl, -⟩ := List.cons.inj whole
          rw [goOn root List.mem_cons_self] at stop
          contradiction
    | none =>
      have later : modules tree settings (root :: rest) = .error failure ↔
          modules tree settings rest = .error failure := by
        rw [modules_cons_of_going stop]
        cases modules tree settings rest <;> simp [Except.map]
      rw [later, ih]
      constructor
      · rintro ⟨before, first, after, error, rfl, goOn, stops, same⟩
        exact ⟨root :: before, first, after, error, rfl, List.forall_mem_cons.2 ⟨stop, goOn⟩, stops,
          same⟩
      · rintro ⟨before, first, after, error, whole, goOn, stops, same⟩
        cases before with
        | nil =>
          obtain ⟨rfl, -⟩ := List.cons.inj whole
          rw [stop] at stops
          contradiction
        | cons head tail =>
          obtain ⟨rfl, rfl⟩ := List.cons.inj whole
          exact ⟨tail, first, after, error, rfl, (List.forall_mem_cons.1 goOn).2, stops, same⟩

end PolicyPages.Discovery
