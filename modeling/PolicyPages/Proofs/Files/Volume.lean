import PolicyPages.Files.Volume
import PolicyPages.Proofs.Files.Directories

/-!
# What volumes leave behind

On a *sound* volume (`Volume.IsSound`) directories are made without a change to any file, a file that is
written holds just what was written, and a write that fails may spoil the file that it is for, but no other.

A faultless volume is sound, and so is one that may be full. A volume with a device that keeps nothing is
not: there a write succeeds, and what was written is nowhere.
-/

namespace PolicyPages.Files

/-- What an attempt to write a file may leave: the tree as it was, or some content in the file. -/
def Tree.Attempts (before : Tree) (path : Path) (after : Tree) : Prop :=
  after = before ∨ ∃ content, before.write path content = .ok after

namespace Volume

/-- Nothing is changed but what shall be made or written. -/
structure IsSound (volume : Volume) : Prop where
  createDirectories : ∀ {tree after : Tree} {path : Path} {result : Except Error Unit},
    volume.createDirectories tree path = (result, after) → tree.AddsDirectories after
  written : ∀ {tree after : Tree} {path : Path} {content : Content},
    volume.write tree path content = (.ok (), after) → tree.write path content = .ok after
  failed : ∀ {tree after : Tree} {path : Path} {content : Content} {error : Error},
    volume.write tree path content = (.error error, after) → tree.Attempts path after

variable {tree after : Tree} {path : Path} {content : Content} {error : Error}

/-- On a faultless volume, a write that fails changes nothing. -/
theorem eq_of_faultless_write (h : faultless.write tree path content = (.error error, after)) :
    after = tree := by
  unfold faultless at h
  cases written : tree.write path content with
  | ok made => simp [written] at h
  | error reason =>
    simp only [written, Prod.mk.injEq] at h
    exact h.2.symm

theorem isSound_faultless : faultless.IsSound where
  createDirectories made := Tree.addsDirectories_createDirectories made
  written {tree after path content} h := by
    unfold faultless at h
    cases written : tree.write path content with
    | ok made =>
      simp only [written, Prod.mk.injEq, true_and] at h
      rw [h]
    | error reason => simp [written] at h
  failed h := .inl (eq_of_faultless_write h)

/-- A full volume cuts off what is written, and changes nothing else. -/
theorem isSound_ofCapacity (capacity : Nat) : (ofCapacity capacity).IsSound where
  createDirectories made := Tree.addsDirectories_createDirectories made
  written {tree after path content} h := by
    simp only [ofCapacity] at h
    split at h
    · simp at h
    · rename_i made written
      split_ifs at h with fits
      · obtain ⟨-, rfl⟩ := Prod.mk.inj h
        exact written
      · split at h <;> simp at h
  failed {tree after path content error} h := by
    simp only [ofCapacity] at h
    split at h
    · exact .inl (Prod.mk.inj h).2.symm
    · split_ifs at h with fits
      · simp at h
      · split at h
        · rename_i cut
          obtain ⟨-, rfl⟩ := Prod.mk.inj h
          exact .inr ⟨_, cut⟩
        · exact .inl (Prod.mk.inj h).2.symm

end Volume

end PolicyPages.Files
