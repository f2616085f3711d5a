import Mathlib.Data.List.Nodup
import Mathlib.Data.String.Basic

/-!
# Stable sorting

`StablySorted key xs ys` says what sorting by a key has to do, without saying how: `ys` are the
values of `xs`, in the order of their keys, and those of one key stand as they stood in `xs`.
Sorting by merging does it (`stablySorted_mergeSort`). If the keys are distinct, the order in which the
values come does not matter (`StablySorted.eq_of_perm`).
-/

namespace PolicyPages

variable {α β κ : Type} [LinearOrder κ] {key : α → κ}

/-- The values of a list in the order of their keys, where those of one key keep their order. -/
structure StablySorted (key : α → κ) (xs ys : List α) : Prop where
  perm : ys.Perm xs
  ordered : ys.Pairwise fun a b => key a ≤ key b
  ties : ∀ k, (ys.filter fun a => key a = k) = xs.filter fun a => key a = k

theorem stablySorted_mergeSort {le : α → α → Bool} (orders : ∀ a b, le a b = true ↔ key a ≤ key b)
    (xs : List α) : StablySorted key xs (xs.mergeSort le) := by
  have trans : ∀ a b c, le a b = true → le b c = true → le a c = true := by
    intro a b c ab bc
    exact (orders a c).2 (le_trans ((orders a b).1 ab) ((orders b c).1 bc))
  have total : ∀ a b, (le a b || le b a) = true := by
    intro a b
    rw [Bool.or_eq_true, orders, orders]
    exact le_total (key a) (key b)
  have perm := List.mergeSort_perm xs le
  refine ⟨perm, (List.pairwise_mergeSort trans total xs).imp fun h => (orders _ _).1 h, ?_⟩
  intro k
  -- The values of one key are ordered already, so they are found again in the sorted list.
  have tied : (xs.filter fun a => key a = k).Pairwise fun a b => le a b = true := by
    rw [List.pairwise_filter]
    apply List.pairwise_of_forall
    intro a b atA atB
    rw [orders, of_decide_eq_true atA, of_decide_eq_true atB]
  have kept := List.sublist_mergeSort trans total tied List.filter_sublist
  have inFilter := kept.filter fun a => decide (key a = k)
  rw [List.filter_filter] at inFilter
  simp only [Bool.and_self] at inFilter
  exact (inFilter.eq_of_length (perm.filter _).length_eq.symm).symm

/-- Sorting by title is by merging. -/
theorem stablySorted_title (title : α → String) (xs : List α) :
    StablySorted title xs (xs.mergeSort fun a b => title a ≤ title b) :=
  stablySorted_mergeSort (fun _ _ => decide_eq_true_iff) xs

theorem StablySorted.map {key : β → κ} {f : α → β} {xs ys : List α}
    (h : StablySorted (fun a => key (f a)) xs ys) : StablySorted key (xs.map f) (ys.map f) := by
  refine ⟨h.perm.map f, List.pairwise_map.2 h.ordered, fun k => ?_⟩
  rw [List.filter_map, List.filter_map]
  exact congrArg (List.map f) (h.ties k)

/-- Values with distinct keys have one order only, in whatever order they come. -/
theorem StablySorted.eq_of_perm {xs ys xs' ys' : List α} (h : StablySorted key xs ys)
    (h' : StablySorted key xs' ys') (perm : xs.Perm xs') (distinct : (xs.map key).Nodup) :
    ys = ys' := by
  have same : ys.Perm ys' := h.perm.trans (perm.trans h'.perm.symm)
  refine same.eq_of_pairwise ?_ h.ordered h'.ordered
  intro a b memA memB ab ba
  have inXs : a ∈ xs := h.perm.mem_iff.1 memA
  have inXs' : b ∈ xs := perm.mem_iff.2 (h'.perm.mem_iff.1 memB)
  exact List.inj_on_of_nodup_map distinct inXs inXs' (le_antisymm ab ba)

end PolicyPages
