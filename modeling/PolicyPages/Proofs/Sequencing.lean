import Mathlib.Data.List.Forall2
import PolicyPages.Session

/-!
# One step after the other

What success of a sequence says of its parts. A sequence of results succeeds just when each of them
does (`mapM_eq_ok_iff`), and fails only as one of them does (`exists_mem_of_mapM_eq_error`). An action
that is made of others yields a value only through values of those (`Action.yields_bind_iff`,
`Action.forall₂_of_yields_mapM`), and relates sessions as they do (`Action.Relates`). What holds after
it, be it of its value or of its failure, is put together in the same way (`Action.meets_bind_iff`).
-/

namespace PolicyPages

variable {ε α β : Type}

/-- What is related to a list one by one has a counterpart for each of its values. -/
theorem exists_mem_of_forall₂ {R : α → β → Prop} {xs : List α} {ys : List β}
    (h : List.Forall₂ R xs ys) {x : α} (mem : x ∈ xs) : ∃ y ∈ ys, R x y := by
  induction h with
  | nil => contradiction
  | cons related _ ih =>
    rcases List.mem_cons.1 mem with rfl | later
    · exact ⟨_, List.mem_cons_self, related⟩
    · obtain ⟨y, memY, relatedY⟩ := ih later
      exact ⟨y, List.mem_cons_of_mem _ memY, relatedY⟩

/-- A result that depends on another succeeds if both do. -/
theorem bind_eq_ok_iff {result : Except ε α} {next : α → Except ε β} {value : β} :
    result >>= next = .ok value ↔ ∃ first, result = .ok first ∧ next first = .ok value := by
  cases result with
  | error failure => simp [bind, Except.bind]
  | ok first => simp [bind, Except.bind]

theorem exists_bind_eq_ok_iff {result : Except ε α} {next : α → Except ε β} :
    (∃ value, result >>= next = .ok value) ↔
      ∃ first, result = .ok first ∧ ∃ value, next first = .ok value := by
  simp only [bind_eq_ok_iff]
  constructor
  · rintro ⟨value, first, found, later⟩
    exact ⟨first, found, value, later⟩
  · rintro ⟨first, found, value, later⟩
    exact ⟨value, first, found, later⟩

theorem mapM_eq_ok_iff {f : α → Except ε β} {xs : List α} {ys : List β} :
    xs.mapM f = .ok ys ↔ List.Forall₂ (fun x y => f x = .ok y) xs ys := by
  induction xs generalizing ys with
  | nil => cases ys <;> simp [pure, Except.pure]
  | cons x rest ih =>
    rw [List.mapM_cons, bind_eq_ok_iff]
    constructor
    · rintro ⟨y, first, others⟩
      obtain ⟨values, mapped, whole⟩ := bind_eq_ok_iff.1 others
      obtain rfl := Except.ok.inj whole
      exact .cons first (ih.1 mapped)
    · intro all
      cases all with
      | cons first others => exact ⟨_, first, bind_eq_ok_iff.2 ⟨_, ih.2 others, rfl⟩⟩

/-- If a sequence of results succeeds, its values hold that of each of them. -/
theorem exists_mem_of_mapM_eq_ok {f : α → Except ε β} {xs : List α} {ys : List β}
    (h : xs.mapM f = .ok ys) {x : α} (mem : x ∈ xs) : ∃ y ∈ ys, f x = .ok y :=
  exists_mem_of_forall₂ (mapM_eq_ok_iff.1 h) mem

/-- Where each pair of two lists is related by way of a third value, so are the lists. -/
theorem exists_forall₂_of_forall₂_exists {γ : Type} {R : α → β → Prop} {S : β → γ → Prop}
    {xs : List α} {zs : List γ} (h : List.Forall₂ (fun x z => ∃ y, R x y ∧ S y z) xs zs) :
    ∃ ys, List.Forall₂ R xs ys ∧ List.Forall₂ S ys zs := by
  induction h with
  | nil => exact ⟨[], .nil, .nil⟩
  | cons first _ ih =>
    obtain ⟨y, before, behind⟩ := first
    obtain ⟨ys, allBefore, allBehind⟩ := ih
    exact ⟨y :: ys, .cons before allBefore, .cons behind allBehind⟩

/-- Where each value of a sequence of results is made by way of another result, so are they all. -/
theorem exists_mapM_eq_ok_of_mapM_eq_ok {γ : Type} {f : α → Except ε γ} {g : α → Except ε β}
    {S : β → γ → Prop} {xs : List α} {zs : List γ}
    (each : ∀ x ∈ xs, ∀ z, f x = .ok z → ∃ y, g x = .ok y ∧ S y z) (h : xs.mapM f = .ok zs) :
    ∃ ys, xs.mapM g = .ok ys ∧ List.Forall₂ S ys zs := by
  have made := (List.forall₂_and_left _ _).2 ⟨each, mapM_eq_ok_iff.1 h⟩
  obtain ⟨ys, through, related⟩ :=
    exists_forall₂_of_forall₂_exists (made.imp fun _ z ⟨each, made⟩ => each z made)
  exact ⟨ys, mapM_eq_ok_iff.2 through, related⟩

theorem toOption_eq_some_iff {result : Except ε α} {value : α} :
    result.toOption = some value ↔ result = .ok value := by
  cases result <;> simp [Except.toOption]

/-- A result whose value passes a test has a value. -/
theorem exists_eq_ok_of_any {result : Except ε α} {test : α → Bool}
    (passes : result.toOption.any test = true) : ∃ value, result = .ok value ∧ test value = true := by
  cases result with
  | error failure => contradiction
  | ok value => exact ⟨value, rfl, passes⟩

theorem bind_eq_error_iff {result : Except ε α} {next : α → Except ε β} {failure : ε} :
    result >>= next = .error failure ↔ result = .error failure ∨
      ∃ first, result = .ok first ∧ next first = .error failure := by
  cases result with
  | error other => simp [bind, Except.bind]
  | ok first => simp [bind, Except.bind]

theorem exists_mapM_eq_ok_iff {f : α → Except ε β} {xs : List α} :
    (∃ ys, xs.mapM f = .ok ys) ↔ ∀ x ∈ xs, ∃ y, f x = .ok y := by
  constructor
  · rintro ⟨ys, mapped⟩ x mem
    obtain ⟨y, _, first⟩ := exists_mem_of_mapM_eq_ok mapped mem
    exact ⟨y, first⟩
  · intro each
    induction xs with
    | nil => exact ⟨[], rfl⟩
    | cons x rest ih =>
      obtain ⟨first, later⟩ := List.forall_mem_cons.1 each
      obtain ⟨y, first⟩ := first
      obtain ⟨ys, mapped⟩ := ih later
      exact ⟨y :: ys, mapM_eq_ok_iff.2 (.cons first (mapM_eq_ok_iff.1 mapped))⟩

/-- A sequence of results fails with the failure of one of them. -/
theorem exists_mem_of_mapM_eq_error {f : α → Except ε β} {xs : List α} {failure : ε}
    (h : xs.mapM f = .error failure) : ∃ x ∈ xs, f x = .error failure := by
  induction xs with
  | nil => contradiction
  | cons x rest ih =>
    rw [List.mapM_cons, bind_eq_error_iff] at h
    rcases h with first | ⟨y, _, later⟩
    · exact ⟨x, List.mem_cons_self, first⟩
    · rcases bind_eq_error_iff.1 later with others | ⟨ys, _, last⟩
      · obtain ⟨other, mem, failed⟩ := ih others
        exact ⟨other, List.mem_cons_of_mem _ mem, failed⟩
      · contradiction

namespace Action

/-- The action succeeds with a value, and leaves a session behind. -/
def Yields (action : Action ε α) (before : Session) (value : α) (after : Session) : Prop :=
  action.outcome before = (.ok value, after)

variable {before after : Session}

theorem outcome_bind (action : Action ε α) (next : α → Action ε β) (before : Session) :
    (action >>= next).outcome before =
      match action.outcome before with
      | (.ok value, after) => (next value).outcome after
      | (.error failure, after) => (.error failure, after) := by
  show (ExceptT.run (action >>= next)).run before = _
  rw [ExceptT.run_bind, StateT.run_bind]
  show (match (ExceptT.run action).run before with
    | (result, after) => _) = _
  unfold outcome
  rcases (ExceptT.run action).run before with ⟨_ | _, _⟩ <;> rfl

@[simp] theorem outcome_pure (value : α) (before : Session) :
    (pure value : Action ε α).outcome before = (.ok value, before) := rfl

@[simp] theorem outcome_throw (failure : ε) (before : Session) :
    (throw failure : Action ε α).outcome before = (.error failure, before) := rfl

@[simp] theorem outcome_files (before : Session) :
    (files : Action ε Files.Tree).outcome before = (.ok before.files, before) := rfl

@[simp] theorem outcome_log (events : List Log.Event) (before : Session) :
    (log events : Action ε Unit).outcome before =
      (.ok (), { before with events := before.events ++ events }) := rfl

@[simp] theorem outcome_ofResult (result : Except ε α) (before : Session) :
    (ofResult result).outcome before = (result, before) := by
  cases result <;> rfl

theorem outcome_change (failure : Files.Error → ε)
    (act : Files.Tree → Except Files.Error Unit × Files.Tree) (before : Session) :
    (change failure act).outcome before =
      match act before.files with
      | (.ok (), tree) => (.ok (), { before with files := tree })
      | (.error error, tree) => (.error (failure error), { before with files := tree }) := by
  unfold change
  rw [outcome_bind, outcome_files]
  dsimp only
  rcases act before.files with ⟨_ | _, tree⟩ <;> rfl

theorem outcome_createDirectories (failure : Files.Error → ε) (path : Path) (before : Session) :
    (createDirectories failure path).outcome before =
      match before.files.createDirectories path with
      | (.ok (), tree) => (.ok (), { before with files := tree })
      | (.error error, tree) => (.error (failure error), { before with files := tree }) :=
  outcome_change failure _ before

theorem outcome_write (failure : Files.Error → ε) (path : Path) (text : String)
    (before : Session) :
    (write failure path text).outcome before =
      match before.files.write path (.text text) with
      | .ok tree => (.ok (), { before with files := tree })
      | .error error => (.error (failure error), before) := by
  rw [write, writeOn, outcome_change, Files.Volume.faultless]
  dsimp only
  cases before.files.write path (.text text) <;> rfl

/-- A sequence yields what its second part does with the value of the first. -/
theorem yields_bind_iff {action : Action ε α} {next : α → Action ε β} {value : β} :
    (action >>= next).Yields before value after ↔
      ∃ first between, action.Yields before first between ∧
        (next first).Yields between value after := by
  unfold Yields
  rw [outcome_bind]
  rcases action.outcome before with ⟨_ | first, between⟩
  · simp
  · simp

theorem yields_pure_iff {result value : α} :
    (pure result : Action ε α).Yields before value after ↔ value = result ∧ after = before := by
  show ((Except.ok result : Except ε α), before) = (.ok value, after) ↔ _
  rw [Prod.mk.injEq, Except.ok.injEq, eq_comm, @eq_comm _ before]

theorem not_yields_throw {failure : ε} {value : α} :
    ¬ (throw failure : Action ε α).Yields before value after := by
  intro yields
  have : ((Except.error failure : Except ε α), before) = (.ok value, after) := yields
  simp at this

/-- A file is written just when the tree of files lets it be. -/
theorem yields_write_iff {failure : Files.Error → ε} {path : Path} {text : String} {value : Unit} :
    (write failure path text).Yields before value after ↔
      ∃ tree, before.files.write path (.text text) = .ok tree ∧
        after = { before with files := tree } := by
  unfold Yields
  rw [outcome_write]
  cases before.files.write path (.text text) <;> simp [eq_comm]

/-- An action whose outcome passes a test yields a value that passes it. -/
theorem exists_yields_of_any {action : Action ε α} {test : α → Bool}
    (h : (action.outcome before).1.toOption.any test = true) :
    ∃ value after, action.Yields before value after ∧ test value = true := by
  obtain ⟨value, succeeds, passes⟩ := exists_eq_ok_of_any h
  exact ⟨value, (action.outcome before).2, Prod.ext succeeds rfl, passes⟩

/-- Whether the action succeeds, and its value and the session after it pass a test. -/
def succeedsWith (action : Action ε α) (before : Session) (test : α → Session → Bool) : Bool :=
  match action.outcome before with
  | (.ok value, after) => test value after
  | (.error _, _) => false

theorem exists_yields_of_succeedsWith {action : Action ε α} {test : α → Session → Bool}
    (h : action.succeedsWith before test = true) :
    ∃ value after, action.Yields before value after ∧ test value after = true := by
  unfold succeedsWith at h
  split at h
  · rename_i value after outcome
    exact ⟨value, after, outcome, h⟩
  · contradiction

/-- Whether the action fails, and its failure and the session after it pass a test. -/
def failsWith (action : Action ε α) (before : Session) (test : ε → Session → Bool) : Bool :=
  match action.outcome before with
  | (.ok _, _) => false
  | (.error failure, after) => test failure after

theorem exists_outcome_of_failsWith {action : Action ε α} {test : ε → Session → Bool}
    (h : action.failsWith before test = true) :
    ∃ failure after, action.outcome before = (.error failure, after) ∧ test failure after = true := by
  unfold failsWith at h
  split at h
  · contradiction
  · rename_i failure after outcome
    exact ⟨failure, after, outcome, h⟩

/-- A sequence of actions over a list yields what they yield, one for each. -/
theorem forall₂_of_yields_mapM {act : α → Action ε β} {xs : List α} {values : List β}
    (h : (xs.mapM act).Yields before values after) :
    List.Forall₂ (fun x value => ∃ before after, (act x).Yields before value after) xs values := by
  induction xs generalizing before after values with
  | nil =>
    rw [List.mapM_nil, yields_pure_iff] at h
    rw [h.1]
    exact .nil
  | cons x rest ih =>
    rw [List.mapM_cons, yields_bind_iff] at h
    obtain ⟨first, between, yieldsFirst, later⟩ := h
    rw [yields_bind_iff] at later
    obtain ⟨others, last, yieldsOthers, whole⟩ := later
    rw [(yields_pure_iff.1 whole).1]
    exact .cons ⟨before, between, yieldsFirst⟩ (ih yieldsOthers)

/-- A sequence of actions over a list is one over its parts. -/
theorem yields_mapM_append_iff {act : α → Action ε β} {xs ys : List α} {values : List β} :
    ((xs ++ ys).mapM act).Yields before values after ↔
      ∃ first second between, values = first ++ second ∧
        (xs.mapM act).Yields before first between ∧ (ys.mapM act).Yields between second after := by
  rw [List.mapM_append, yields_bind_iff]
  constructor
  · rintro ⟨first, between, yieldsFirst, later⟩
    obtain ⟨second, last, yieldsSecond, whole⟩ := yields_bind_iff.1 later
    obtain ⟨rfl, rfl⟩ := yields_pure_iff.1 whole
    exact ⟨first, second, between, rfl, yieldsFirst, yieldsSecond⟩
  · rintro ⟨first, second, between, rfl, yieldsFirst, yieldsSecond⟩
    exact ⟨first, between, yieldsFirst,
      yields_bind_iff.2 ⟨second, after, yieldsSecond, yields_pure_iff.2 ⟨rfl, rfl⟩⟩⟩

theorem yields_mapM_cons_iff {act : α → Action ε β} {x : α} {xs : List α} {values : List β} :
    ((x :: xs).mapM act).Yields before values after ↔
      ∃ first rest between, values = first :: rest ∧ (act x).Yields before first between ∧
        (xs.mapM act).Yields between rest after := by
  rw [List.mapM_cons, yields_bind_iff]
  constructor
  · rintro ⟨first, between, yieldsFirst, later⟩
    obtain ⟨rest, last, yieldsRest, whole⟩ := yields_bind_iff.1 later
    obtain ⟨rfl, rfl⟩ := yields_pure_iff.1 whole
    exact ⟨first, rest, between, rfl, yieldsFirst, yieldsRest⟩
  · rintro ⟨first, rest, between, rfl, yieldsFirst, yieldsRest⟩
    exact ⟨first, between, yieldsFirst,
      yields_bind_iff.2 ⟨rest, after, yieldsRest, yields_pure_iff.2 ⟨rfl, rfl⟩⟩⟩

/-! ### What an action does to the session -/

/-- Whenever the action succeeds, the sessions before and after it are related. -/
def Relates (R : Session → Session → Prop) (action : Action ε α) : Prop :=
  ∀ before value after, action.Yields before value after → R before after

section

variable {R : Session → Session → Prop}

theorem relates_pure (refl : ∀ session, R session session) (value : α) :
    (pure value : Action ε α).Relates R := by
  intro before result after yields
  rw [(yields_pure_iff.1 yields).2]
  exact refl before

theorem relates_throw (failure : ε) : (throw failure : Action ε α).Relates R :=
  fun _ _ _ yields => absurd yields not_yields_throw

variable (trans : ∀ a b c, R a b → R b c → R a c)

include trans in
theorem Relates.bind {action : Action ε α} {next : α → Action ε β} (first : action.Relates R)
    (second : ∀ value, (next value).Relates R) : (action >>= next).Relates R := by
  intro before value after yields
  obtain ⟨value, between, yieldsFirst, yieldsSecond⟩ := yields_bind_iff.1 yields
  exact trans _ _ _ (first _ _ _ yieldsFirst) (second _ _ _ _ yieldsSecond)

include trans in
theorem relates_mapM (refl : ∀ session, R session session) {act : α → Action ε β} {xs : List α}
    (each : ∀ x ∈ xs, (act x).Relates R) : (xs.mapM act).Relates R := by
  induction xs with
  | nil => exact relates_pure refl []
  | cons x rest ih =>
    obtain ⟨first, later⟩ := List.forall_mem_cons.1 each
    rw [List.mapM_cons]
    exact first.bind trans fun _ => (ih later).bind trans fun _ => relates_pure refl _

include trans in
theorem relates_forIn (refl : ∀ session, R session session) {act : α → Action ε PUnit}
    {xs : List α} (each : ∀ x ∈ xs, (act x).Relates R) :
    (forIn xs PUnit.unit fun x _ => do act x; return .yield PUnit.unit : Action ε PUnit).Relates
      R := by
  induction xs with
  | nil => exact relates_pure refl _
  | cons x rest ih =>
    obtain ⟨first, later⟩ := List.forall_mem_cons.1 each
    rw [List.forIn_cons, bind_assoc]
    simp only [pure_bind]
    exact first.bind trans fun _ => ih later

end

/-! ### What holds after an action -/

/-- After the action, the first condition holds of its value, or the second one of its failure, and of
the session that is left. -/
def Meets (action : Action ε α) (before : Session) (done : α → Session → Prop)
    (failed : ε → Session → Prop) : Prop :=
  match action.outcome before with
  | (.ok value, after) => done value after
  | (.error failure, after) => failed failure after

section

variable {action : Action ε α} {next : α → Action ε β} {done done' : α → Session → Prop}
  {failed failed' : ε → Session → Prop}

/-- A sequence meets its conditions if its second part does behind the first, and the first one meets
that on failures. -/
theorem meets_bind_iff {done : β → Session → Prop} :
    (action >>= next).Meets before done failed ↔
      action.Meets before (fun value between => (next value).Meets between done failed) failed := by
  unfold Meets
  rw [outcome_bind]
  rcases action.outcome before with ⟨_ | value, between⟩ <;> rfl

theorem Meets.imp (h : action.Meets before done failed)
    (onDone : ∀ value after, done value after → done' value after)
    (onFailed : ∀ failure after, failed failure after → failed' failure after) :
    action.Meets before done' failed' := by
  unfold Meets at h ⊢
  split
  · rename_i outcome
    rw [outcome] at h
    exact onDone _ _ h
  · rename_i outcome
    rw [outcome] at h
    exact onFailed _ _ h

/-- A success meets the condition on values. -/
theorem Meets.of_yields (h : action.Meets before done failed) {value : α}
    (yields : action.Yields before value after) : done value after := by
  unfold Meets at h
  rw [yields] at h
  exact h

/-- A failure meets the condition on failures. -/
theorem Meets.of_outcome_eq_error (h : action.Meets before done failed) {failure : ε}
    (fails : action.outcome before = (.error failure, after)) : failed failure after := by
  unfold Meets at h
  rw [fails] at h
  exact h

end

end Action

end PolicyPages
