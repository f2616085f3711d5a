import PolicyPages.Proofs.Files.Lookup

/-!
# Arriving at a directory

Names *arrive* at a directory if each of them can be followed. What is looked up behind such names is
looked up from the directory (`Arrives.lookUp_append`). Names that arrive can be cut anywhere
(`arrives_append_iff`), and empty names and `.` in them do not matter (`Arrives.congr`).
-/

namespace PolicyPages.Files

open Relation (ReflTransGen)
open PolicyPages.Path (leads)

/-- Names lead from a position to a directory, and leave a number of links to be followed. -/
structure Arrives (tree : Tree) (start : Position) (left : Nat) (goal : Place) : Prop where
  moves : Moves tree (.find true) start ⟨left, goal, []⟩
  directory : tree.isDirectory goal = true

/-- A position with more names. -/
def Position.append (position : Position) (rest : List FileName) : Position :=
  { position with names := position.names ++ rest }

section

variable {tree grown : Tree} {purpose : Purpose} {a b start : Position} {links left : Nat}
  {place goal : Place} {names rest xs ys : List FileName} {name : FileName}

/-- The names behind others are such that it does not matter for the first ones what is looked up. -/
def Continues (purpose : Purpose) (rest : List FileName) : Prop :=
  purpose = .find true ∨ rest ≠ [] ∧ rest ≠ [[]]

theorem Move.append (move : Move tree (.find true) a b) (continues : Continues purpose rest) :
    Move tree purpose (a.append rest) (b.append rest) := by
  have allowed (before : List FileName) : purpose = .write → before ++ rest ≠ [[]] := by
    rintro rfl same
    obtain ⟨more, noSlash⟩ := continues.resolve_left nofun
    cases before with
    | nil => exact noSlash same
    | cons first others => simp [more] at same
  have followed (before : List FileName) : follows purpose (before ++ rest) = true := by
    rcases continues with rfl | ⟨more, -⟩ <;> simp [follows, *]
  cases move with
  | stay directory still => exact .stay directory still
  | up directory => exact .up directory
  | down directory isName _ found noLink => exact .down directory isName (allowed _) found noLink
  | @follow links place name others target directory isName _ found _ =>
    have move : Move tree purpose ⟨links + 1, place, name :: (others ++ rest)⟩
        ⟨links, if target.isAbsolute then [] else place, steps target ++ (others ++ rest)⟩ :=
      .follow directory isName (allowed _) found (followed _)
    rw [← List.append_assoc] at move
    exact move

theorem Moves.append (moves : Moves tree (.find true) a b) (continues : Continues purpose rest) :
    Moves tree purpose (a.append rest) (b.append rest) := by
  induction moves with
  | refl => exact .refl
  | tail _ move ih => exact .tail ih (move.append continues)

namespace Arrives

/-- What is looked up behind names that arrive is looked up from the directory. -/
theorem lookUp_append (arrives : Arrives tree ⟨links, place, names⟩ left goal)
    (continues : Continues purpose rest) :
    Position.lookUp ⟨links, place, names ++ rest⟩ tree purpose =
      Position.lookUp ⟨left, goal, rest⟩ tree purpose :=
  (arrives.moves.append continues).lookUp_eq

theorem lookUp_eq (arrives : Arrives tree start left goal) :
    start.lookUp tree (.find true) = .ok (.found goal .directory) :=
  arrives.moves.lookUp_eq.trans (Ends.found (Tree.isDirectory_iff.1 arrives.directory)).lookUp_eq

theorem unique {other : Nat} {place : Place} (first : Arrives tree start left goal)
    (second : Arrives tree start other place) : place = goal := by
  have same := second.lookUp_eq.symm.trans first.lookUp_eq
  simp only [Except.ok.injEq, Target.found.injEq] at same
  exact same.1

theorem grows (arrives : Arrives tree start left goal) (grows : tree.Grows grown) :
    Arrives grown start left goal :=
  ⟨arrives.moves.grows grows, grows.isDirectory arrives.directory⟩

theorem isDirectory_start (arrives : Arrives tree start left goal) :
    tree.isDirectory start.place = true := by
  rcases ReflTransGen.cases_head arrives.moves with same | ⟨next, move, -⟩
  · rw [same]
    exact arrives.directory
  · cases move <;> assumption

end Arrives

theorem arrives_of_lookUp
    (h : start.lookUp tree (.find true) = .ok (.found goal .directory)) :
    ∃ left, Arrives tree start left goal := by
  obtain ⟨last, moves, ends⟩ := lookUp_eq_iff.1 h
  cases ends with
  | found there => exact ⟨_, moves, Tree.isDirectory_iff.2 there⟩

/-- Names that are followed can be cut anywhere. -/
theorem Moves.cut (moves : Moves tree (.find true) start ⟨left, goal, []⟩)
    (names : start.names = xs ++ ys) :
    ∃ between middle, Moves tree (.find true) ⟨start.links, start.place, xs⟩ ⟨between, middle, []⟩ ∧
      Moves tree (.find true) ⟨between, middle, ys⟩ ⟨left, goal, []⟩ := by
  induction moves using ReflTransGen.head_induction_on generalizing xs with
  | refl =>
    obtain ⟨rfl, rfl⟩ := List.append_eq_nil_iff.1 names.symm
    exact ⟨_, _, .refl, .refl⟩
  | @head a b move moves ih =>
    cases xs with
    | nil =>
      -- The cut is here: all moves that are left belong to the second part.
      obtain rfl : a.names = ys := names
      exact ⟨_, _, .refl, .head move moves⟩
    | cons first others =>
      cases move with
      | stay directory still =>
        obtain ⟨rfl, rfl⟩ := List.cons.inj names
        obtain ⟨between, middle, before, after⟩ := ih rfl
        exact ⟨between, middle, .head (.stay directory still) before, after⟩
      | up directory =>
        obtain ⟨rfl, rfl⟩ := List.cons.inj names
        obtain ⟨between, middle, before, after⟩ := ih rfl
        exact ⟨between, middle, .head (.up directory) before, after⟩
      | down directory isName allowed found noLink =>
        obtain ⟨rfl, rfl⟩ := List.cons.inj names
        obtain ⟨between, middle, before, after⟩ := ih rfl
        exact ⟨between, middle, .head (.down directory isName nofun found noLink) before, after⟩
      | follow directory isName allowed found followed =>
        obtain ⟨rfl, rfl⟩ := List.cons.inj names
        -- The names of the link are followed first, so they belong to the first part.
        obtain ⟨between, middle, before, after⟩ := ih (List.append_assoc _ _ _).symm
        exact ⟨between, middle,
          .head (.follow directory isName nofun found (by simp [follows])) before, after⟩

theorem arrives_append_iff :
    Arrives tree ⟨links, place, xs ++ ys⟩ left goal ↔
      ∃ between middle, Arrives tree ⟨links, place, xs⟩ between middle ∧
        Arrives tree ⟨between, middle, ys⟩ left goal := by
  constructor
  · intro arrives
    obtain ⟨between, middle, before, after⟩ := arrives.moves.cut rfl
    have behind : Arrives tree ⟨between, middle, ys⟩ left goal := ⟨after, arrives.directory⟩
    exact ⟨between, middle, ⟨before, behind.isDirectory_start⟩, behind⟩
  · rintro ⟨between, middle, before, after⟩
    exact ⟨(before.moves.append (.inl rfl)).trans after.moves, after.directory⟩

/-- Names that lead nowhere else can be followed in a directory. -/
theorem moves_of_not_leads (directory : tree.isDirectory place = true)
    (still : ∀ name ∈ xs, leads name = false) :
    Moves tree purpose ⟨links, place, xs ++ rest⟩ ⟨links, place, rest⟩ := by
  induction xs with
  | nil => exact .refl
  | cons name others ih =>
    obtain ⟨first, later⟩ := List.forall_mem_cons.1 still
    exact .head (.stay directory first) (ih later)

/-- Names that lead nowhere else do not matter on the way to a directory. -/
theorem Moves.congr (moves : Moves tree (.find true) start ⟨left, goal, []⟩)
    (directory : tree.isDirectory goal = true)
    (same : names.filter leads = start.names.filter leads) :
    Moves tree (.find true) ⟨start.links, start.place, names⟩ ⟨left, goal, []⟩ := by
  induction moves using ReflTransGen.head_induction_on generalizing names with
  | refl =>
    have still := List.filter_eq_nil_iff.1 same
    rw [← List.append_nil names]
    exact moves_of_not_leads directory fun name mem => by simpa using still name mem
  | @head a b move moves ih =>
    -- A name that leads somewhere stands in the other names too, behind others that do not.
    have skip {name : FileName} {rest : List FileName} (there : tree.isDirectory a.place = true)
        (first : a.names = name :: rest) (leading : leads name = true)
        (goOn : ∀ others : List FileName, others.filter leads = rest.filter leads →
          Moves tree (.find true) ⟨a.links, a.place, name :: others⟩ ⟨left, goal, []⟩) :
        Moves tree (.find true) ⟨a.links, a.place, names⟩ ⟨left, goal, []⟩ := by
      rw [first, List.filter_cons_of_pos leading] at same
      obtain ⟨before, others, rfl, still, -, after⟩ := List.filter_eq_cons_iff.1 same
      exact (moves_of_not_leads there fun name mem => by simpa using still name mem).trans
        (goOn others after)
    cases move with
    | stay there still =>
      refine ih ?_
      rw [same, List.filter_cons_of_neg (by simp [still])]
    | up there =>
      exact skip there rfl (by decide) fun others after => .head (.up there) (ih after)
    | down there isName allowed found noLink =>
      exact skip there rfl isName.leads fun others after =>
        .head (.down there isName nofun found noLink) (ih after)
    | follow there isName allowed found followed =>
      refine skip there rfl isName.leads fun others after =>
        .head (.follow there isName nofun found (by simp [follows])) (ih ?_)
      rw [List.filter_append, List.filter_append, after]

theorem Arrives.congr (arrives : Arrives tree ⟨links, place, xs⟩ left goal)
    (same : ys.filter leads = xs.filter leads) : Arrives tree ⟨links, place, ys⟩ left goal :=
  ⟨arrives.moves.congr arrives.directory same, arrives.directory⟩

/-- A lookup that ends before the last name fails, whatever stands behind the names. -/
theorem Ends.append_error {result : Except Error Target} (ends : Ends tree (.find true) a result) :
    a.names = [] ∨
      ∃ error, ∀ rest, rest ≠ [] → Ends tree (.find true) (a.append rest) (.error error) := by
  cases ends with
  | found there => exact .inl rfl
  | nothing free => exact .inl rfl
  | notDirectory other => exact .inr ⟨_, fun rest _ => .notDirectory other⟩
  | asDirectory directory leads down refused => exact absurd refused.1 nofun
  | tooLong directory leads down allowed long =>
    exact .inr ⟨_, fun rest _ => .tooLong directory leads down nofun long⟩
  | free directory isName free =>
    exact .inr ⟨_, fun rest more => .missing directory isName nofun free more⟩
  | missing directory isName allowed free more =>
    exact .inr ⟨_, fun rest _ => .missing directory isName nofun free (by simp [more])⟩
  | link directory isName allowed found unfollowed => simp [follows] at unfollowed
  | exhausted directory isName allowed found followed =>
    exact .inr ⟨_, fun rest _ => .exhausted directory isName nofun found (by simp [follows])⟩

/-- Names arrive at a directory, or it does not matter what stands behind them. -/
theorem arrives_or_error (tree : Tree) (links : Nat) (place : Place) (names : List FileName) :
    (∃ left goal, Arrives tree ⟨links, place, names⟩ left goal) ∨
      ∃ error, ∀ rest, rest ≠ [] →
        Position.lookUp ⟨links, place, names ++ rest⟩ tree (.find true) = .error error := by
  obtain ⟨last, result, moves, ends⟩ := exists_ends tree (.find true) ⟨links, place, names⟩
  have behind (rest : List FileName) :
      Position.lookUp ⟨links, place, names ++ rest⟩ tree (.find true) =
        (last.append rest).lookUp tree (.find true) :=
    (moves.append (.inl rfl)).lookUp_eq
  rcases ends.append_error with none | ⟨error, refused⟩
  · obtain ⟨left, goal, _⟩ := last
    obtain rfl := none
    cases directory : tree.isDirectory goal with
    | true => exact .inl ⟨left, goal, moves, directory⟩
    | false =>
      refine .inr ⟨.notDirectory, fun rest more => ?_⟩
      obtain ⟨name, others, rfl⟩ := List.exists_cons_of_ne_nil more
      exact (behind _).trans (Ends.notDirectory directory).lookUp_eq
  · exact .inr ⟨error, fun rest more => (behind rest).trans (refused rest more).lookUp_eq⟩

/-! ### A single name -/

theorem arrives_down (directory : tree.isDirectory place = true) (isName : IsName name)
    (found : tree.isDirectory (place ++ [name]) = true) :
    Arrives tree ⟨links, place, [name]⟩ links (place ++ [name]) :=
  ⟨.single (.down directory isName nofun (Tree.isDirectory_iff_kind?.1 found) nofun), found⟩

/-- A name that is followed in a directory is that of something there. -/
theorem Arrives.isSome_at? (arrives : Arrives tree ⟨links, place, [name]⟩ left goal)
    (leading : leads name = true) (down : name ≠ Path.dotDot) :
    IsName name ∧ (tree.at? (place ++ [name])).isSome := by
  have some {kind : Kind} (found : tree.kind? (place ++ [name]) = some kind) :
      (tree.at? (place ++ [name])).isSome := by
    obtain ⟨node, there, -⟩ := Option.map_eq_some_iff.1 found
    rw [there]
    rfl
  rcases ReflTransGen.cases_head arrives.moves with same | ⟨next, move, -⟩
  · simp at same
  · cases move with
    | stay directory still => simp [leading] at still
    | up directory => contradiction
    | down directory isName allowed found noLink => exact ⟨isName, some found⟩
    | follow directory isName allowed found followed => exact ⟨isName, some found⟩

end

end PolicyPages.Files
