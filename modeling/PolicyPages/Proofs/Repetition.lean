import PolicyPages.Proofs.Files.Directories
import PolicyPages.Proofs.Sequencing

/-!
# Doing an action again

An action *repeats* if it does the same once more on what it has left behind, also if files have been
added since: it has the same result, adds nothing, and leaves the same in every place that it changes.
Writing a file and making directories repeat, and so does everything that is made of actions that do
(`Repeats.bind`, `repeats_mapM`, `repeats_forIn`).

A failure need not be the very same one again. Which failures may take the place of which is a
parameter, `agree`; it may depend on the files as they were when the action failed.
-/

namespace PolicyPages

open Files (Tree)

variable {ε α β : Type}

/-- Two results that count as the same. -/
inductive Agrees (agree : ε → ε → Prop) : Except ε α → Except ε α → Prop
  | ok (value : α) : Agrees agree (.ok value) (.ok value)
  | error {first second : ε} (same : agree first second) :
    Agrees agree (.error first) (.error second)

/-- What an action leaves behind is ready for it to be done again: files may have been added to it,
unless the action has failed. -/
def Ready : Except ε α → Tree → Tree → Prop
  | .ok _, after, again => after.Grows again
  | .error _, after, again => after.SameShape again

/-- A directory could not be made, and it cannot be made in what was left behind. The reasons may differ. -/
structure RefusedTwice (stopped : Tree) (directory : Path) (reason other : Files.Error) : Prop where
  first : ∃ before : Tree, before.createDirectories directory = (.error reason, stopped)
  second : stopped.createDirectories directory = (.error other, stopped)

/-- At each place, neither of two changes changes anything, or both leave the same there. -/
def ChangesAgree (before after again last : Tree) : Prop :=
  ∀ place, (after.at? place = before.at? place ∧ last.at? place = again.at? place) ∨
    last.at? place = after.at? place

/-- An action adds to the files, and does the same when it is done again. -/
structure Action.Repeats (agree : Tree → ε → ε → Prop) (action : Action ε α) : Prop where
  of_outcome : ∀ {before after : Session} {result : Except ε α}, before.files.Closed →
    action.outcome before = (result, after) →
      before.files.Grows after.files ∧ after.files.Closed ∧
      ∀ again : Session, Ready result after.files again.files →
        ∃ repeated last, action.outcome again = (repeated, last) ∧
          Agrees (agree after.files) result repeated ∧ again.files.SameShape last.files ∧
          ChangesAgree before.files after.files again.files last.files

section

variable {before after between again middle last : Tree}

theorem ChangesAgree.trans (first : ChangesAgree before between again middle)
    (second : ChangesAgree between after middle last) : ChangesAgree before after again last := by
  intro place
  rcases second place with ⟨same, sameAgain⟩ | same
  · rcases first place with ⟨unchanged, unchangedAgain⟩ | changed
    · exact .inl ⟨same.trans unchanged, sameAgain.trans unchangedAgain⟩
    · exact .inr (sameAgain.trans (changed.trans same.symm))
  · exact .inr same

/-- Directories that are added are there the second time. -/
theorem changesAgree_of_addsDirectories (adds : before.AddsDirectories after)
    (grows : after.Grows again) (unchanged : ∀ place, last.at? place = again.at? place) :
    ChangesAgree before after again last := by
  intro place
  rcases adds.at? place with same | ⟨-, new⟩
  · exact .inl ⟨same, unchanged place⟩
  · right
    have kind := grows.kind? place .directory (Tree.kind?_eq_directory_iff.2 new)
    rw [unchanged, new]
    exact Tree.kind?_eq_directory_iff.1 kind

theorem ChangesAgree.refl (before again : Tree) : ChangesAgree before before again again :=
  fun _ => .inl ⟨rfl, rfl⟩

theorem Ready.grows {result : Except ε α} (ready : Ready result after again) :
    after.Grows again := by
  cases result with
  | ok value => exact ready
  | error failure => exact Tree.SameShape.grows ready

/-- Adding nothing keeps files ready. -/
theorem Ready.trans {result : Except ε α} (ready : Ready result after again)
    (same : again.SameShape last) : Ready result after last := by
  cases result with
  | ok value => exact Tree.Grows.trans ready same.grows
  | error failure => exact Tree.SameShape.trans ready same

end

namespace Action

variable {agree : Tree → ε → ε → Prop}

/-- An action that does not touch the files repeats, if it does not depend on them. -/
theorem repeats_of_outcome {action : Action ε α} {result : Except ε α}
    (same : ∀ before, ∃ events, action.outcome before = (result, ⟨before.files, events⟩))
    (agrees : ∀ tree, Agrees (agree tree) result result) : action.Repeats agree := by
  refine ⟨fun {before after found} closed outcome => ?_⟩
  obtain ⟨events, expected⟩ := same before
  rw [expected] at outcome
  obtain ⟨rfl, rfl⟩ := Prod.mk.inj outcome
  refine ⟨.refl _, closed, fun again _ => ?_⟩
  obtain ⟨eventsAgain, repeated⟩ := same again
  exact ⟨_, _, repeated, agrees _, .refl _, .refl _ _⟩

theorem repeats_pure (value : α) : (pure value : Action ε α).Repeats agree :=
  repeats_of_outcome (fun before => ⟨before.events, rfl⟩) fun _ => .ok value

theorem repeats_throw {failure : ε} (same : ∀ tree, agree tree failure failure) :
    (throw failure : Action ε α).Repeats agree :=
  repeats_of_outcome (fun before => ⟨before.events, rfl⟩) fun tree => .error (same tree)

theorem repeats_log (events : List Log.Event) : (log events : Action ε Unit).Repeats agree :=
  repeats_of_outcome (fun before => ⟨before.events ++ events, rfl⟩) fun _ => .ok ()

/-- A sequence of two actions that repeat does so too. -/
theorem Repeats.bind {action : Action ε α} {next : α → Action ε β}
    (first : action.Repeats agree) (second : ∀ value, (next value).Repeats agree) :
    (action >>= next).Repeats agree := by
  refine ⟨fun {before after result} closed outcome => ?_⟩
  rw [outcome_bind] at outcome
  rcases began : action.outcome before with ⟨failure | value, between⟩
  · rw [began] at outcome
    obtain ⟨rfl, rfl⟩ := Prod.mk.inj outcome
    obtain ⟨grows, closedAfter, repeats⟩ := first.of_outcome closed began
    refine ⟨grows, closedAfter, fun again ready => ?_⟩
    obtain ⟨repeated, last, outcomeAgain, agrees, shape, changes⟩ := repeats again ready
    cases agrees with
    | error same =>
      exact ⟨_, last, by rw [outcome_bind, outcomeAgain], .error same, shape, changes⟩
  · rw [began] at outcome
    obtain ⟨growsFirst, closedBetween, repeatsFirst⟩ := first.of_outcome closed began
    obtain ⟨growsSecond, closedAfter, repeatsSecond⟩ :=
      (second value).of_outcome closedBetween outcome
    -- The first action is done again on files to which the second one has added its own.
    refine ⟨growsFirst.trans growsSecond, closedAfter, fun again ready => ?_⟩
    obtain ⟨repeated, middle, outcomeFirst, agrees, shapeFirst, changesFirst⟩ :=
      repeatsFirst again (growsSecond.trans ready.grows)
    cases agrees with
    | ok =>
      obtain ⟨result, last, outcomeSecond, agrees, shapeSecond, changesSecond⟩ :=
        repeatsSecond middle (ready.trans shapeFirst)
      refine ⟨result, last, ?_, agrees, shapeFirst.trans shapeSecond,
        changesFirst.trans changesSecond⟩
      rw [outcome_bind, outcomeFirst]
      exact outcomeSecond

theorem repeats_mapM {act : α → Action ε β} {xs : List α}
    (each : ∀ x ∈ xs, (act x).Repeats agree) : (xs.mapM act).Repeats agree := by
  induction xs with
  | nil => exact repeats_pure []
  | cons x rest ih =>
    obtain ⟨first, later⟩ := List.forall_mem_cons.1 each
    rw [List.mapM_cons]
    exact first.bind fun _ => (ih later).bind fun _ => repeats_pure _

theorem repeats_forIn {act : α → Action ε PUnit} {xs : List α}
    (each : ∀ x ∈ xs, (act x).Repeats agree) :
    (forIn xs PUnit.unit fun x _ => do act x; return .yield PUnit.unit : Action ε PUnit).Repeats
      agree := by
  induction xs with
  | nil => exact repeats_pure _
  | cons x rest ih =>
    obtain ⟨first, later⟩ := List.forall_mem_cons.1 each
    rw [List.forIn_cons, bind_assoc]
    simp only [pure_bind]
    exact first.bind fun _ => ih later

/-- A file that is written again holds the same again. -/
theorem repeats_write {failure : Files.Error → ε} {path : Path} {text : String}
    (same : ∀ tree error, agree tree (failure error) (failure error)) :
    (write failure path text).Repeats agree := by
  refine ⟨fun {before after result} closed outcome => ?_⟩
  rw [outcome_write] at outcome
  cases written : before.files.write path (.text text) with
  | error error =>
    rw [written] at outcome
    obtain ⟨rfl, rfl⟩ := Prod.mk.inj outcome
    refine ⟨.refl _, closed, fun again ready => ?_⟩
    have failed : again.files.write path (.text text) = .error error :=
      Tree.write_error_of_sameShape ready written
    exact ⟨_, again, by rw [outcome_write, failed], .error (same _ error), .refl _, .refl _ _⟩
  | ok tree =>
    rw [written] at outcome
    obtain ⟨rfl, rfl⟩ := Prod.mk.inj outcome
    refine ⟨Tree.grows_of_write written, Tree.closed_of_write closed written,
      fun again ready => ?_⟩
    obtain ⟨place, below, rfl, stays⟩ := Tree.leadsTo_of_write written
    obtain ⟨leadsTo, file⟩ := stays again.files ready
    have repeated := leadsTo.write_eq file (.text text)
    refine ⟨_, _, by rw [outcome_write, repeated], .ok (), Tree.sameShape_put_file file,
      fun other => ?_⟩
    by_cases here : other = place
    · right
      rw [here, Tree.at?_put_self below, Tree.at?_put_self below]
    · left
      exact ⟨Tree.at?_put_of_ne below here, Tree.at?_put_of_ne below here⟩

/-- Directories that are made again are there. -/
theorem repeats_createDirectories {failure : Files.Error → ε} {path : Path}
    (same : ∀ tree error, agree tree (failure error) (failure error))
    (turned : path.turnsBack = true → ∀ tree error other, RefusedTwice tree path error other →
      agree tree (failure error) (failure other)) :
    (createDirectories failure path).Repeats agree := by
  refine ⟨fun {before after result} closed outcome => ?_⟩
  rw [outcome_createDirectories] at outcome
  rcases made : before.files.createDirectories path with ⟨error | _, tree⟩
  · rw [made] at outcome
    obtain ⟨rfl, rfl⟩ := Prod.mk.inj outcome
    have adds := Tree.addsDirectories_createDirectories made
    refine ⟨adds.grows, adds.closed closed, fun again ready => ?_⟩
    obtain ⟨other, last, failedHere, failed, shape, unchanged, straight⟩ :=
      Tree.createDirectories_error_again made ready
    refine ⟨_, _, by rw [outcome_createDirectories, failed], .error ?_, shape,
      changesAgree_of_addsDirectories adds ready.grows unchanged⟩
    cases turns : path.turnsBack with
    | true => exact turned turns _ error other ⟨⟨before.files, made⟩, failedHere⟩
    | false =>
      rw [straight closed turns]
      exact same _ error
  · rw [made] at outcome
    obtain ⟨rfl, rfl⟩ := Prod.mk.inj outcome
    have adds := Tree.addsDirectories_createDirectories made
    refine ⟨adds.grows, adds.closed closed, fun again ready => ?_⟩
    have repeated := Tree.createDirectories_again made ready
    exact ⟨_, _, by rw [outcome_createDirectories, repeated], .ok (), .refl _,
      changesAgree_of_addsDirectories adds ready fun _ => rfl⟩

end Action

end PolicyPages
