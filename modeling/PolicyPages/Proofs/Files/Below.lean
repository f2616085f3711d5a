import PolicyPages.Proofs.Files.Directory

/-!
# Places below a directory

A path to a file that lies below another path leads through the directory which that one reaches
(`Tree.LeadsTo.reaches`). Where no link lies below this directory, the names that follow lead to the
place that they spell (`Tree.LeadsTo.place_eq`). So different names lead to different places.
-/

namespace PolicyPages.Files

open PolicyPages.Path (LeadsDown)
open Relation (ReflTransGen)

/-- No link lies below a place. -/
def Tree.NoLinksBelow (tree : Tree) (goal : Place) : Prop :=
  ∀ below target, tree.kind? (goal ++ below) ≠ some (.link target)

/-- Whether a tree holds no links. -/
def Tree.isLinkFree (tree : Tree) : Bool :=
  tree.entries.all fun entry =>
    match entry.2 with
    | .link _ => false
    | _ => true

theorem Tree.noLinksBelow_of_isLinkFree {tree : Tree} (free : tree.isLinkFree = true)
    (goal : Place) : tree.NoLinksBelow goal := by
  intro below target found
  have there := kind?_eq_link_iff.1 found
  have notRoot : goal ++ below ≠ [] := fun root => by simp [root] at there
  have isLink := List.all_eq_true.1 free _ (mem_entries_of_at? notRoot there)
  contradiction

/-- The position is below a place, and the names that are left lead down to another one. -/
structure Descends (goal whole : Place) (position : Position) : Prop where
  below : ∃ done, position.place = goal ++ done
  down : ∀ name ∈ position.names, LeadsDown name
  whole : position.place ++ position.names = whole

section

variable {tree : Tree} {purpose : Purpose} {a b : Position} {goal whole place : Place}

theorem Descends.move (noLinks : tree.NoLinksBelow goal) (h : Descends goal whole a)
    (move : Move tree purpose a b) : Descends goal whole b := by
  obtain ⟨⟨done, place⟩, down, whole⟩ := h
  -- Only names that lead down are left, so the position moves down, and never along a link.
  cases move with
  | stay directory still =>
    have leads := (down _ List.mem_cons_self).1
    rw [still] at leads
    contradiction
  | up directory => exact absurd rfl (down _ List.mem_cons_self).2
  | @down _ _ name _ _ directory isName allowed found noLink =>
    refine ⟨⟨done ++ [name], ?_⟩, (List.forall_mem_cons.1 down).2, ?_⟩
    · rw [← List.append_assoc, ← place]
    · rw [← whole, List.append_assoc]
      rfl
  | follow directory isName allowed found followed =>
    dsimp only at place
    rw [place, List.append_assoc] at found
    exact absurd found (noLinks _ _)

theorem Descends.moves (noLinks : tree.NoLinksBelow goal) (h : Descends goal whole a)
    (moves : Moves tree purpose a b) : Descends goal whole b := by
  induction moves with
  | refl => exact h
  | tail _ move ih => exact ih.move noLinks move

theorem Descends.place_eq (noLinks : tree.NoLinksBelow goal) (h : Descends goal whole a)
    {target : Target} (ends : Ends tree purpose a (.ok target)) : target.place = whole := by
  obtain ⟨⟨done, place⟩, down, whole⟩ := h
  cases ends with
  | found there => exact (List.append_nil _).symm.trans whole
  | free directory isName free => exact whole
  | link directory isName allowed found unfollowed =>
    dsimp only at place
    rw [place, List.append_assoc] at found
    exact absurd found (noLinks _ _)

end

/-- The names of a path that does not end in a separator are followed as they are. -/
theorem steps_eq_names {path : Path} (named : path.units.getLast? ≠ some Path.separator) :
    steps path = path.names := by
  rw [steps, if_neg named, List.append_nil, Path.names]

namespace Tree

variable {tree : Tree} {path base : Path} {goal place : Place} {below : List FileName}

/-- A path below one that reaches a directory leads to the place that its names spell, if no link lies
there. -/
theorem LeadsTo.place_eq (leadsTo : tree.LeadsTo .write path place)
    (reaches : tree.Reaches base goal) (noLinks : tree.NoLinksBelow goal)
    (isBelow : path.Extends base below) (nonempty : below ≠ [])
    (named : path.units.getLast? ≠ some Path.separator) : place = goal ++ below := by
  obtain ⟨target, found, rfl⟩ := leadsTo
  obtain ⟨-, found⟩ := lookUp_eq_ok_iff.1 found
  obtain ⟨left, arrives⟩ := reaches
  -- Up to the directory the names are those of the other path, and they arrive there.
  have arrivesNames : Arrives tree ⟨maxLinks, tree.start path, base.names⟩ left goal := by
    rw [start, isBelow.isAbsolute]
    exact arrives.congr (by rw [Path.filter_leads_names, filter_leads_way])
  have noSlash : below ≠ [[]] := fun same => by
    have leads := (isBelow.down [] (by simp [same])).1
    contradiction
  rw [position, steps_eq_names named, isBelow.names,
    arrivesNames.lookUp_append (.inr ⟨nonempty, noSlash⟩)] at found
  obtain ⟨last, moves, ends⟩ := lookUp_eq_iff.1 found
  have descends : Descends goal (goal ++ below) ⟨left, goal, below⟩ :=
    ⟨⟨[], (List.append_nil _).symm⟩, isBelow.down, rfl⟩
  exact (descends.moves noLinks moves).place_eq noLinks ends

/-- A path to a file leads through the directories of any path that it lies below. -/
theorem LeadsTo.reaches (leadsTo : tree.LeadsTo .write path place)
    (file : tree.kind? place = some .file) (isBelow : path.Extends base below) (nonempty : below ≠ [])
    (named : path.units.getLast? ≠ some Path.separator) : ∃ goal, tree.Reaches base goal := by
  rcases leadsTo.lookUp_eq with ⟨node, there, found⟩ | ⟨_, _, -, -, free, -⟩
  · obtain ⟨-, found⟩ := lookUp_eq_ok_iff.1 found
    replace found := lookUp_find_of_write found
    rw [position, steps_eq_names named, isBelow.names] at found
    rcases arrives_or_error tree maxLinks (tree.start path) base.names with
      ⟨left, goal, arrives⟩ | ⟨error, refused⟩
    · refine ⟨goal, left, ?_⟩
      rw [start, ← isBelow.isAbsolute]
      exact arrives.congr (by rw [Path.filter_leads_names, filter_leads_way])
    · rw [refused below nonempty] at found
      contradiction
  · rw [kind?_eq_none_iff.2 free] at file
    contradiction

end Tree

end PolicyPages.Files
