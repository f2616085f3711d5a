import Mathlib.Data.List.Basic
import Mathlib.Data.List.Induction

/-!
# Distinct keys

Lists of keys without repetitions, as `eraseDups` makes them, and lists of values that are dealt out
to such keys (`flatMap_filter_perm`).
-/

namespace PolicyPages

variable {α κ : Type}

theorem eraseDups_concat [DecidableEq α] (xs : List α) (x : α) :
    (xs ++ [x]).eraseDups = if x ∈ xs then xs.eraseDups else xs.eraseDups ++ [x] := by
  rw [List.eraseDups_append]
  by_cases known : x ∈ xs
  · simp [List.removeAll, known]
  · simp [List.removeAll, known, List.eraseDups_cons]

theorem nodup_eraseDups [DecidableEq α] (xs : List α) : xs.eraseDups.Nodup := by
  induction xs using List.reverseRecOn with
  | nil => exact List.nodup_nil
  | append_singleton xs x ih =>
    rw [eraseDups_concat]
    split
    · exact ih
    · rename_i new
      have last : ∀ y ∈ xs, y ≠ x := fun y mem same => new (same ▸ mem)
      simpa [List.nodup_append, ih] using last

section

variable [DecidableEq κ]

/-- The values without those of a key. -/
def dropKey (k : κ) (xs : List (Option κ × α)) : List (Option κ × α) :=
  xs.filter fun x => !decide (x.1 = some k)

theorem filter_dropKey {j k : κ} (other : j ≠ k) (xs : List (Option κ × α)) :
    (dropKey k xs).filter (·.1 = some j) = xs.filter (·.1 = some j) := by
  rw [dropKey, List.filter_filter]
  apply List.filter_congr
  intro x _
  by_cases atJ : x.1 = some j <;> simp [atJ, other]

theorem filter_append_dropKey_perm (k : κ) (xs : List (Option κ × α)) :
    (xs.filter (·.1 = some k) ++ (dropKey k xs).filter (·.1.isSome)).Perm
      (xs.filter (·.1.isSome)) := by
  have own : xs.filter (·.1 = some k) = (xs.filter (·.1.isSome)).filter (·.1 = some k) := by
    rw [List.filter_filter]
    apply List.filter_congr
    intro x _
    by_cases atK : x.1 = some k <;> simp [atK]
  have others : (dropKey k xs).filter (·.1.isSome) = dropKey k (xs.filter (·.1.isSome)) := by
    rw [dropKey, dropKey, List.filter_filter, List.filter_filter]
    exact List.filter_congr fun x _ => Bool.and_comm _ _
  rw [own, others]
  exact List.filter_append_perm (fun x : Option κ × α => decide (x.1 = some k)) _

/-- Values are dealt out to distinct keys: none is lost, and none is dealt out twice. -/
theorem flatMap_filter_perm {keys : List κ} (distinct : keys.Nodup) {xs : List (Option κ × α)}
    (known : ∀ x ∈ xs, ∀ k ∈ x.1, k ∈ keys) :
    (keys.flatMap fun k => xs.filter (·.1 = some k)).Perm (xs.filter (·.1.isSome)) := by
  induction keys generalizing xs with
  | nil =>
    have none : xs.filter (·.1.isSome) = [] := by
      rw [List.filter_eq_nil_iff]
      intro x mem isSome
      obtain ⟨k, found⟩ := Option.isSome_iff_exists.1 isSome
      exact List.not_mem_nil (known x mem k found)
    rw [none, List.flatMap_nil]
  | cons k keys ih =>
    obtain ⟨new, distinct⟩ := List.nodup_cons.1 distinct
    have others : (keys.flatMap fun j => (dropKey k xs).filter (·.1 = some j)).Perm
        ((dropKey k xs).filter (·.1.isSome)) := by
      refine ih distinct ?_
      intro x mem j found
      obtain ⟨inXs, other⟩ := List.mem_filter.1 mem
      rcases List.mem_cons.1 (known x inXs j found) with rfl | later
      · have atK : x.1 = some j := found
        simp [atK] at other
      · exact later
    have apart : (keys.flatMap fun j => (dropKey k xs).filter (·.1 = some j)) =
        keys.flatMap fun j => xs.filter (·.1 = some j) := by
      refine List.flatMap_congr ?_
      intro j inKeys
      have other : j ≠ k := fun same => new (same ▸ inKeys)
      exact filter_dropKey other xs
    rw [apart] at others
    rw [List.flatMap_cons]
    exact (others.append_left _).trans (filter_append_dropKey_perm k xs)

end

end PolicyPages
