import Mathlib.Logic.Relation
import PolicyPages.Files.Lookup
import PolicyPages.Proofs.Files.Tree
import PolicyPages.Proofs.Path

/-!
# Following names

A lookup as a sequence of moves, one for each name and each link that is followed, up to a position at
which nothing can be followed any more (`lookUp_eq_iff`). What holds of a lookup is shown for one move
and for the end: moves stay possible when a tree grows (`Move.grows`), and so a lookup that has led
somewhere still does (`lookUp_of_grows`); and the contents of files do not matter at all
(`lookUp_error_of_sameShape`).
-/

namespace PolicyPages.Files

open Relation (ReflTransGen)

/-- A name that something in a directory may have. -/
structure IsName (name : FileName) : Prop where
  leads : Path.leads name = true
  down : name ≠ Path.dotDot
  short : name.bytes.length ≤ maxNameLength

/-- How far names have been followed: how many links may still be followed, the place that is reached,
and the names that are left. -/
structure Position where
  links : Nat
  place : Place
  names : List FileName

/-- Looks up the names that are left. -/
def Position.lookUp (position : Position) (tree : Tree) (purpose : Purpose) :
    Except Error Target :=
  lookUpFrom tree purpose position.links position.place position.names

/-- One name is followed. -/
inductive Move (tree : Tree) (purpose : Purpose) : Position → Position → Prop
  | stay {links : Nat} {place : Place} {name : FileName} {rest : List FileName}
      (directory : tree.isDirectory place = true) (still : Path.leads name = false) :
      Move tree purpose ⟨links, place, name :: rest⟩ ⟨links, place, rest⟩
  | up {links : Nat} {place : Place} {rest : List FileName}
      (directory : tree.isDirectory place = true) :
      Move tree purpose ⟨links, place, Path.dotDot :: rest⟩ ⟨links, place.dropLast, rest⟩
  | down {links : Nat} {place : Place} {name : FileName} {rest : List FileName} {kind : Kind}
      (directory : tree.isDirectory place = true) (isName : IsName name)
      (allowed : purpose = .write → rest ≠ [[]])
      (found : tree.kind? (place ++ [name]) = some kind) (noLink : ∀ target, kind ≠ .link target) :
      Move tree purpose ⟨links, place, name :: rest⟩ ⟨links, place ++ [name], rest⟩
  | follow {links : Nat} {place : Place} {name : FileName} {rest : List FileName} {target : Path}
      (directory : tree.isDirectory place = true) (isName : IsName name)
      (allowed : purpose = .write → rest ≠ [[]])
      (found : tree.kind? (place ++ [name]) = some (.link target))
      (followed : follows purpose rest = true) :
      Move tree purpose ⟨links + 1, place, name :: rest⟩
        ⟨links, if target.isAbsolute then [] else place, steps target ++ rest⟩

/-- A number of names are followed. -/
abbrev Moves (tree : Tree) (purpose : Purpose) : Position → Position → Prop :=
  ReflTransGen (Move tree purpose)

/-- Nothing can be followed any more, and this is the result. -/
inductive Ends (tree : Tree) (purpose : Purpose) : Position → Except Error Target → Prop
  | found {links : Nat} {place : Place} {node : Node} (there : tree.at? place = some node) :
      Ends tree purpose ⟨links, place, []⟩ (.ok (.found place node))
  | nothing {links : Nat} {place : Place} (free : tree.at? place = none) :
      Ends tree purpose ⟨links, place, []⟩ (.error .notFound)
  | notDirectory {links : Nat} {place : Place} {name : FileName} {rest : List FileName}
      (other : tree.isDirectory place = false) :
      Ends tree purpose ⟨links, place, name :: rest⟩ (.error .notDirectory)
  | asDirectory {links : Nat} {place : Place} {name : FileName} {rest : List FileName}
      (directory : tree.isDirectory place = true) (leads : Path.leads name = true)
      (down : name ≠ Path.dotDot) (refused : purpose = .write ∧ rest = [[]]) :
      Ends tree purpose ⟨links, place, name :: rest⟩ (.error .isDirectory)
  | tooLong {links : Nat} {place : Place} {name : FileName} {rest : List FileName}
      (directory : tree.isDirectory place = true) (leads : Path.leads name = true)
      (down : name ≠ Path.dotDot) (allowed : purpose = .write → rest ≠ [[]])
      (long : maxNameLength < name.bytes.length) :
      Ends tree purpose ⟨links, place, name :: rest⟩ (.error .nameTooLong)
  | free {links : Nat} {place : Place} {name : FileName}
      (directory : tree.isDirectory place = true) (isName : IsName name)
      (free : tree.at? (place ++ [name]) = none) :
      Ends tree purpose ⟨links, place, [name]⟩ (.ok (.free place name))
  | missing {links : Nat} {place : Place} {name : FileName} {rest : List FileName}
      (directory : tree.isDirectory place = true) (isName : IsName name)
      (allowed : purpose = .write → rest ≠ [[]]) (free : tree.at? (place ++ [name]) = none)
      (more : rest ≠ []) :
      Ends tree purpose ⟨links, place, name :: rest⟩ (.error .notFound)
  | link {links : Nat} {place : Place} {name : FileName} {rest : List FileName} {target : Path}
      (directory : tree.isDirectory place = true) (isName : IsName name)
      (allowed : purpose = .write → rest ≠ [[]])
      (found : tree.kind? (place ++ [name]) = some (.link target))
      (unfollowed : follows purpose rest = false) :
      Ends tree purpose ⟨links, place, name :: rest⟩
        (.ok (.found (place ++ [name]) (.link target)))
  | exhausted {place : Place} {name : FileName} {rest : List FileName} {target : Path}
      (directory : tree.isDirectory place = true) (isName : IsName name)
      (allowed : purpose = .write → rest ≠ [[]])
      (found : tree.kind? (place ++ [name]) = some (.link target))
      (followed : follows purpose rest = true) :
      Ends tree purpose ⟨0, place, name :: rest⟩ (.error .tooManyLinks)

section

variable {tree : Tree} {purpose : Purpose} {links : Nat} {place : Place} {name : FileName}
  {rest : List FileName}

/-! ### One name -/

theorem stretch_of_not_leads (directory : tree.isDirectory place = true)
    (still : Path.leads name = false) :
    stretch tree purpose place (name :: rest) = stretch tree purpose place rest := by
  have nothing : (name = [] || name = Path.dot) = true := by
    simpa [Path.leads, or_iff_not_imp_left] using still
  rw [stretch, directory, if_neg (by simp), if_pos nothing]

theorem stretch_dotDot (directory : tree.isDirectory place = true) :
    stretch tree purpose place (Path.dotDot :: rest) =
      stretch tree purpose place.dropLast rest := by
  rw [stretch, directory, if_neg (by simp), if_neg (by decide), if_pos rfl]

theorem stretch_of_leads (directory : tree.isDirectory place = true)
    (leads : Path.leads name = true) (down : name ≠ Path.dotDot) :
    stretch tree purpose place (name :: rest) =
      if purpose = .write ∧ rest = [[]] then .error .isDirectory
      else if maxNameLength < name.bytes.length then .error .nameTooLong
      else
        match tree.at? (place ++ [name]) with
        | none => if rest = [] then .ok (.done (.free place name)) else .error .notFound
        | some (.link target) =>
          if follows purpose rest then .ok (.link place target rest)
          else .ok (.done (.found (place ++ [name]) (.link target)))
        | some _ => stretch tree purpose (place ++ [name]) rest := by
  have nonempty : (name = [] || name = Path.dot) = false := by
    simpa [Path.leads, not_or] using leads
  have opened := stretch.eq_2 tree purpose place name rest
  rw [directory, if_neg (by simp), if_neg (by simp [nonempty]), if_neg down] at opened
  simp only [Bool.and_eq_true, decide_eq_true_eq] at opened
  exact opened

/-- What is looked up depends on the stretch up to the next link only. -/
theorem lookUpFrom_congr {other : Place} {names others : List FileName}
    (same : stretch tree purpose place names = stretch tree purpose other others) :
    lookUpFrom tree purpose links place names = lookUpFrom tree purpose links other others := by
  cases links <;> rw [lookUpFrom, lookUpFrom, same]

theorem lookUpFrom_of_stretch_error {names : List FileName} {error : Error}
    (h : stretch tree purpose place names = .error error) :
    lookUpFrom tree purpose links place names = .error error := by
  cases links <;> rw [lookUpFrom, h]

theorem lookUpFrom_of_stretch_done {names : List FileName} {target : Target}
    (h : stretch tree purpose place names = .ok (.done target)) :
    lookUpFrom tree purpose links place names = .ok target := by
  cases links <;> rw [lookUpFrom, h]

end

section

variable {tree : Tree} {purpose : Purpose}

/-- A move does not change what is found. -/
theorem Move.lookUp_eq {a b : Position} (move : Move tree purpose a b) :
    a.lookUp tree purpose = b.lookUp tree purpose := by
  unfold Position.lookUp
  cases move with
  | stay directory still => exact lookUpFrom_congr (stretch_of_not_leads directory still)
  | up directory => exact lookUpFrom_congr (stretch_dotDot directory)
  | @down _ _ _ _ kind directory isName allowed found noLink =>
    refine lookUpFrom_congr ?_
    rw [stretch_of_leads directory isName.leads isName.down, if_neg (by tauto),
      if_neg (by have := isName.short; omega)]
    obtain ⟨node, there, rfl⟩ := Option.map_eq_some_iff.1 found
    rw [there]
    cases node with
    | link target => exact absurd rfl (noLink target)
    | file content => rfl
    | directory => rfl
  | follow directory isName allowed found followed =>
    rw [lookUpFrom, stretch_of_leads directory isName.leads isName.down, if_neg (by tauto),
      if_neg (by have := isName.short; omega), Tree.kind?_eq_link_iff.1 found]
    simp only [followed, if_true]

theorem Ends.lookUp_eq {a : Position} {result : Except Error Target}
    (ends : Ends tree purpose a result) : a.lookUp tree purpose = result := by
  unfold Position.lookUp
  cases ends with
  | found there => exact lookUpFrom_of_stretch_done (by rw [stretch, there])
  | nothing free => exact lookUpFrom_of_stretch_error (by rw [stretch, free])
  | notDirectory other =>
    exact lookUpFrom_of_stretch_error (by rw [stretch, other, if_pos (by rfl)])
  | asDirectory directory leads down refused =>
    refine lookUpFrom_of_stretch_error ?_
    rw [stretch_of_leads directory leads down, if_pos refused]
  | tooLong directory leads down allowed long =>
    refine lookUpFrom_of_stretch_error ?_
    rw [stretch_of_leads directory leads down, if_neg (by tauto), if_pos long]
  | free directory isName free =>
    refine lookUpFrom_of_stretch_done ?_
    rw [stretch_of_leads directory isName.leads isName.down, if_neg (by simp),
      if_neg (by have := isName.short; omega), free]
    rfl
  | missing directory isName allowed free more =>
    refine lookUpFrom_of_stretch_error ?_
    rw [stretch_of_leads directory isName.leads isName.down, if_neg (by tauto),
      if_neg (by have := isName.short; omega), free]
    simp only [more, if_false]
  | link directory isName allowed found unfollowed =>
    refine lookUpFrom_of_stretch_done ?_
    rw [stretch_of_leads directory isName.leads isName.down, if_neg (by tauto),
      if_neg (by have := isName.short; omega), Tree.kind?_eq_link_iff.1 found]
    simp only [unfollowed, Bool.false_eq_true, if_false]
  | exhausted directory isName allowed found followed =>
    rw [lookUpFrom, stretch_of_leads directory isName.leads isName.down, if_neg (by tauto),
      if_neg (by have := isName.short; omega), Tree.kind?_eq_link_iff.1 found]
    simp only [followed, if_true]

theorem Moves.lookUp_eq {a b : Position} (moves : Moves tree purpose a b) :
    a.lookUp tree purpose = b.lookUp tree purpose := by
  induction moves with
  | refl => rfl
  | tail _ move ih => exact ih.trans move.lookUp_eq

/-- A name that is there or not is followed, or it is the end. -/
theorem ends_or_move_of_isName (directory : tree.isDirectory place = true) (isName : IsName name)
    (allowed : purpose = .write → rest ≠ [[]]) :
    (∃ result, Ends tree purpose ⟨links, place, name :: rest⟩ result) ∨
      ∃ next, Move tree purpose ⟨links, place, name :: rest⟩ next := by
  cases there : tree.kind? (place ++ [name]) with
  | none =>
    have free := Tree.kind?_eq_none_iff.1 there
    by_cases more : rest = []
    · subst more
      exact .inl ⟨_, .free directory isName free⟩
    · exact .inl ⟨_, .missing directory isName allowed free more⟩
  | some kind =>
    match kind with
    | .file => exact .inr ⟨_, .down directory isName allowed there nofun⟩
    | .directory => exact .inr ⟨_, .down directory isName allowed there nofun⟩
    | .link target =>
      cases followed : follows purpose rest with
      | false => exact .inl ⟨_, .link directory isName allowed there followed⟩
      | true =>
        -- The links that are left decide only here.
        match links with
        | 0 => exact .inl ⟨_, .exhausted directory isName allowed there followed⟩
        | left + 1 => exact .inr ⟨_, .follow directory isName allowed there followed⟩

/-- From each position there is a move, unless it is an end. -/
theorem ends_or_move (a : Position) :
    (∃ result, Ends tree purpose a result) ∨ ∃ next, Move tree purpose a next := by
  obtain ⟨links, place, names⟩ := a
  cases names with
  | nil =>
    cases there : tree.at? place with
    | none => exact .inl ⟨_, .nothing there⟩
    | some node => exact .inl ⟨_, .found there⟩
  | cons name rest =>
    cases directory : tree.isDirectory place with
    | false => exact .inl ⟨_, .notDirectory directory⟩
    | true =>
      cases leads : Path.leads name with
      | false => exact .inr ⟨_, .stay directory leads⟩
      | true =>
        by_cases up : name = Path.dotDot
        · subst up
          exact .inr ⟨_, .up directory⟩
        by_cases refused : purpose = .write ∧ rest = [[]]
        · exact .inl ⟨_, .asDirectory directory leads up refused⟩
        have allowed : purpose = .write → rest ≠ [[]] := fun write slash => refused ⟨write, slash⟩
        by_cases short : name.bytes.length ≤ maxNameLength
        · exact ends_or_move_of_isName directory ⟨leads, up, short⟩ allowed
        · exact .inl ⟨_, .tooLong directory leads up allowed (by omega)⟩

/-- A move uses up a link, or else a name. -/
theorem Move.decreases {a b : Position} (move : Move tree purpose a b) :
    Prod.Lex (· < ·) (· < ·) (b.links, b.names.length) (a.links, a.names.length) := by
  cases move with
  | stay | up | down => exact .right _ (Nat.lt_succ_self _)
  | follow => exact .left _ _ (Nat.lt_succ_self _)

/-- Following names comes to an end. -/
theorem exists_ends (tree : Tree) (purpose : Purpose) (a : Position) :
    ∃ last result, Moves tree purpose a last ∧ Ends tree purpose last result := by
  rcases @ends_or_move tree purpose a with ⟨result, ends⟩ | ⟨next, move⟩
  · exact ⟨a, result, .refl, ends⟩
  · obtain ⟨last, result, moves, ends⟩ := exists_ends tree purpose next
    exact ⟨last, result, .head move moves, ends⟩
termination_by (a.links, a.names.length)
decreasing_by exact move.decreases

/-- A lookup is a number of moves to an end. -/
theorem lookUp_eq_iff {a : Position} {result : Except Error Target} :
    a.lookUp tree purpose = result ↔
      ∃ last, Moves tree purpose a last ∧ Ends tree purpose last result := by
  constructor
  · rintro rfl
    obtain ⟨last, result, moves, ends⟩ := exists_ends tree purpose a
    exact ⟨last, moves, (moves.lookUp_eq.trans ends.lookUp_eq) ▸ ends⟩
  · rintro ⟨last, moves, ends⟩
    exact moves.lookUp_eq.trans ends.lookUp_eq

end

/-! ### Lookups in a tree that grows -/

/-- The place that a target is at. -/
def Target.place : Target → Place
  | .found place _ => place
  | .free directory name => directory ++ [name]

section

variable {tree grown other : Tree} {purpose : Purpose} {a b : Position} {target : Target}
  {error : Error}

theorem Move.grows (grows : tree.Grows grown) (move : Move tree purpose a b) :
    Move grown purpose a b := by
  cases move with
  | stay directory still => exact .stay (grows.isDirectory directory) still
  | up directory => exact .up (grows.isDirectory directory)
  | down directory isName allowed found noLink =>
    exact .down (grows.isDirectory directory) isName allowed (grows.kind? _ _ found) noLink
  | follow directory isName allowed found followed =>
    exact .follow (grows.isDirectory directory) isName allowed (grows.kind? _ _ found) followed

theorem Moves.grows (grows : tree.Grows grown) (moves : Moves tree purpose a b) :
    Moves grown purpose a b :=
  ReflTransGen.mono (fun _ _ => Move.grows grows) _ _ moves

/-- No link has come to a place since. -/
def NoNewLink (tree grown : Tree) (place : Place) : Prop :=
  tree.kind? place = none → ∀ target, grown.kind? place ≠ some (.link target)

theorem Ends.exists_of_grows (grows : tree.Grows grown) (ends : Ends tree purpose a (.ok target))
    (noNewLink : NoNewLink tree grown target.place) :
    ∃ now, a.lookUp grown purpose = .ok now ∧ now.place = target.place := by
  cases ends with
  | found there =>
    obtain ⟨node, there, -⟩ := grows.at? there
    exact ⟨_, (Ends.found there).lookUp_eq, rfl⟩
  | @free links place name directory isName free =>
    have directory := grows.isDirectory directory
    cases now : grown.at? (place ++ [name]) with
    | none => exact ⟨_, (Ends.free directory isName now).lookUp_eq, rfl⟩
    | some node =>
      have down : Move grown purpose ⟨links, place, [name]⟩ ⟨links, place ++ [name], []⟩ :=
        .down directory isName (fun _ => nofun) (Tree.kind?_of_at? now)
          fun target link =>
            noNewLink (Tree.kind?_eq_none_iff.2 free) target (link ▸ Tree.kind?_of_at? now)
      exact ⟨_, down.lookUp_eq.trans (Ends.found now).lookUp_eq, rfl⟩
  | link directory isName allowed found unfollowed =>
    exact ⟨_, (Ends.link (grows.isDirectory directory) isName allowed
      (grows.kind? _ _ found) unfollowed).lookUp_eq, rfl⟩

/-- What a lookup has led to, it leads to in a tree that has grown. -/
theorem lookUp_of_grows (grows : tree.Grows grown) (h : a.lookUp tree purpose = .ok target)
    (noNewLink : NoNewLink tree grown target.place) :
    ∃ now, a.lookUp grown purpose = .ok now ∧ now.place = target.place := by
  obtain ⟨last, moves, ends⟩ := lookUp_eq_iff.1 h
  rw [(moves.grows grows).lookUp_eq]
  exact ends.exists_of_grows grows noNewLink

theorem Ends.sameShape (same : tree.SameShape other) (ends : Ends tree purpose a (.error error)) :
    Ends other purpose a (.error error) := by
  have free {place : Place} (nothing : tree.at? place = none) : other.at? place = none := by
    rw [← Tree.kind?_eq_none_iff, same.kind?, Tree.kind?_eq_none_iff, nothing]
  cases ends with
  | nothing nothing => exact .nothing (free nothing)
  | notDirectory directory => exact .notDirectory (by rw [same.isDirectory, directory])
  | asDirectory directory leads down refused =>
    exact .asDirectory (same.grows.isDirectory directory) leads down refused
  | tooLong directory leads down allowed long =>
    exact .tooLong (same.grows.isDirectory directory) leads down allowed long
  | missing directory isName allowed nothing more =>
    exact .missing (same.grows.isDirectory directory) isName allowed (free nothing) more
  | exhausted directory isName allowed found followed =>
    exact .exhausted (same.grows.isDirectory directory) isName allowed
      (same.grows.kind? _ _ found) followed

/-- Whether a lookup fails, and how, does not depend on the contents of files. -/
theorem lookUp_error_of_sameShape (same : tree.SameShape other)
    (h : a.lookUp tree purpose = .error error) : a.lookUp other purpose = .error error := by
  obtain ⟨last, moves, ends⟩ := lookUp_eq_iff.1 h
  exact lookUp_eq_iff.2 ⟨last, moves.grows same.grows, ends.sameShape same⟩

/-! ### Where lookups end -/

theorem at?_of_lookUp_found {place : Place} {node : Node}
    (h : a.lookUp tree purpose = .ok (.found place node)) : tree.at? place = some node := by
  obtain ⟨last, -, ends⟩ := lookUp_eq_iff.1 h
  cases ends with
  | found there => exact there
  | link directory isName allowed found unfollowed => exact Tree.kind?_eq_link_iff.1 found

theorem of_lookUp_free {directory : Place} {name : FileName}
    (h : a.lookUp tree purpose = .ok (.free directory name)) :
    tree.isDirectory directory = true ∧ IsName name ∧ tree.at? (directory ++ [name]) = none := by
  obtain ⟨last, -, ends⟩ := lookUp_eq_iff.1 h
  cases ends with
  | free directory isName free => exact ⟨directory, isName, free⟩

theorem Move.find (move : Move tree .write a b) : Move tree (.find true) a b := by
  cases move with
  | stay directory still => exact .stay directory still
  | up directory => exact .up directory
  | down directory isName allowed found noLink =>
    exact .down directory isName nofun found noLink
  | follow directory isName allowed found followed =>
    exact .follow directory isName nofun found (by simp [follows])

/-- A file that can be written is found at its place. -/
theorem lookUp_find_of_write (h : a.lookUp tree .write = .ok target) :
    a.lookUp tree (.find true) = .ok target := by
  obtain ⟨last, moves, ends⟩ := lookUp_eq_iff.1 h
  refine lookUp_eq_iff.2 ⟨last, ReflTransGen.mono (fun _ _ => Move.find) _ _ moves, ?_⟩
  cases ends with
  | found there => exact .found there
  | free directory isName free => exact .free directory isName free
  | link directory isName allowed found unfollowed => simp [follows] at unfollowed

end

end PolicyPages.Files
