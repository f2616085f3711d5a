import Mathlib.Data.List.Infix
import PolicyPages.Topic

/-!
# Topics do not overlap

The directories of the topics lie side by side below `policy`, so a module is in one topic at most
(`Topic.eq_of_contains`), and the first topic that a module belongs to is the only one
(`Topic.of?_eq_some_iff`).
-/

namespace PolicyPages.Topic

theorem all_ne_nil : all ≠ [] := by
  decide

theorem components_directory : ∀ topic ∈ all, topic.directory.components =
    [.name (Path.ofText "policy").units, .name (Path.ofText topic.qualifier).units] := by
  decide +kernel

theorem eq_of_qualifier_units : ∀ a ∈ all, ∀ b ∈ all,
    (Path.ofText a.qualifier).units = (Path.ofText b.qualifier).units → a = b := by
  decide +kernel

variable {topic other : Topic} {file : Path}

theorem contains_iff : topic.contains file = true ↔
    topic.directory.components <+: file.components := by
  rw [contains, Path.startsWith, List.isPrefixOf_iff_prefix]

/-- A module is in one topic at most. -/
theorem eq_of_contains (mem : topic ∈ all) (mem' : other ∈ all) (h : topic.contains file = true)
    (h' : other.contains file = true) : topic = other := by
  have below := contains_iff.1 h
  have below' := contains_iff.1 h'
  rw [components_directory topic mem] at below
  rw [components_directory other mem'] at below'
  -- Both beginnings of the path have two components, so they are the same.
  have same := List.prefix_of_prefix_length_le below below' (Nat.le_refl 2)
  have components := same.eq_of_length rfl
  simp only [List.cons.injEq, Path.Component.name.injEq, true_and, and_true] at components
  exact eq_of_qualifier_units topic mem other mem' components

theorem contains_of_of? (found : of? file = some topic) :
    topic ∈ all ∧ topic.contains file = true := by
  rw [of?] at found
  exact ⟨List.mem_of_find?_eq_some found, by simpa using List.find?_some found⟩

/-- The first topic of a module is its only one. -/
theorem of?_eq_some_iff : of? file = some topic ↔ topic ∈ all ∧ topic.contains file = true := by
  refine ⟨contains_of_of?, ?_⟩
  rintro ⟨mem, holds⟩
  have isSome : (of? file).isSome = true := List.find?_isSome.2 ⟨topic, mem, holds⟩
  obtain ⟨first, found⟩ := Option.isSome_iff_exists.1 isSome
  obtain ⟨memFirst, firstHolds⟩ := contains_of_of? found
  rw [found, eq_of_contains memFirst mem firstHolds holds]

theorem nodup_all : all.Nodup := by
  decide

end PolicyPages.Topic
