import PolicyPages.Proofs.Files.Denotation

/-!
# Making a directory

A path *reaches* a directory if all names that lead somewhere can be followed. A directory is made just
where a path leads to a free name in a directory (`createDirectory_eq_ok_iff`), and then the path
reaches it; where a path reaches a directory already, none is made (`createDirectory_of_reaches`).
Contents of files do not matter for this (`createDirectory_of_sameShape`,
`createDirectory_error_of_sameShape`).
-/

namespace PolicyPages.Files

open PolicyPages.Path (leads)

namespace Tree

/-- A path reaches a directory. -/
def Reaches (tree : Tree) (path : Path) (goal : Place) : Prop :=
  ∃ left, Arrives tree ⟨maxLinks, tree.start path, path.way⟩ left goal

section

variable {tree grown other after : Tree} {path above : Path} {place goal directory : Place}
  {front : List FileName} {last : FileName} {left : Nat} {error : Error}

theorem Reaches.unique (first : tree.Reaches path goal) (second : tree.Reaches path place) :
    place = goal := by
  obtain ⟨_, first⟩ := first
  obtain ⟨_, second⟩ := second
  exact first.unique second

theorem Reaches.grows (reaches : tree.Reaches path goal) (grows : tree.Grows grown) :
    grown.Reaches path goal := by
  obtain ⟨left, arrives⟩ := reaches
  refine ⟨left, ?_⟩
  rw [grows.start]
  exact arrives.grows grows

theorem find_directory_iff :
    tree.find true path = .ok (goal, .directory) ↔
      checkPath path = .ok () ∧ tree.Reaches path goal := by
  rw [find_eq_ok_iff, lookUp_eq_ok_iff]
  have same : path.way.filter leads = (steps path).filter leads := by
    rw [filter_leads_way, filter_leads_steps]
  refine and_congr_right fun _ => ⟨fun reached => ?_, fun ⟨left, arrives⟩ => ?_⟩
  · obtain ⟨left, arrives⟩ := arrives_of_lookUp reached
    exact ⟨left, arrives.congr same⟩
  · exact (arrives.congr same.symm).lookUp_eq

theorem holdsDirectory_iff :
    tree.holdsDirectory path = true ↔
      checkPath path = .ok () ∧ ∃ goal, tree.Reaches path goal := by
  simp only [holdsDirectory_iff_find, find_directory_iff, exists_and_left]

/-- What is above a path that reaches a directory is one, and the last name leads on from there. -/
theorem Reaches.cut (reaches : tree.Reaches path goal) (lies : path.LiesIn above)
    (way : path.way = above.way ++ [last]) :
    ∃ middle, tree.Reaches above middle ∧
      ∃ between left, Arrives tree ⟨between, middle, [last]⟩ left goal := by
  obtain ⟨left, arrives⟩ := reaches
  rw [way] at arrives
  obtain ⟨between, middle, before, behind⟩ := arrives_append_iff.1 arrives
  refine ⟨middle, ⟨between, ?_⟩, between, left, behind⟩
  rwa [start, lies.isAbsolute]

/-! ### One directory -/

theorem createDirectory_of_checkPath (refused : checkPath path = .error error) :
    tree.createDirectory path = .error error := by
  rw [createDirectory, add, refused]
  rfl

/-- The last name of a path leads somewhere, unless it is a `.`. -/
theorem leads_of_names (names : path.names = front ++ [last]) (notDot : last ≠ Path.dot) :
    leads last = true := by
  have mem : last ∈ path.names := by simp [names]
  have named : last ≠ [] := by simpa [Path.names] using (List.mem_filter.1 mem).2
  simp [leads, named, notDot]

theorem createDirectory_of_names_nil (checked : checkPath path = .ok ()) (none : path.names = []) :
    tree.createDirectory path = .error .alreadyExists := by
  rw [createDirectory, add, checked, filter_steps, none]
  rfl

theorem createDirectory_of_error (checked : checkPath path = .ok ())
    (names : path.names = front ++ [last])
    (refused : Position.lookUp ⟨maxLinks, tree.start path, front ++ [[]]⟩ tree (.find true) =
      .error error) :
    tree.createDirectory path = .error error := by
  unfold Position.lookUp at refused
  simp only [createDirectory, add, checked, filter_steps, names, List.getLast?_concat,
    List.dropLast_concat, refused, bind, Except.bind]

theorem createDirectory_of_arrives (checked : checkPath path = .ok ())
    (names : path.names = front ++ [last])
    (arrives : Arrives tree ⟨maxLinks, tree.start path, front⟩ left directory) :
    tree.createDirectory path =
      if last = Path.dot || last = Path.dotDot then .error .alreadyExists
      else if maxNameLength < last.bytes.length then .error .nameTooLong
      else if (tree.at? (directory ++ [last])).isSome then .error .alreadyExists
      else .ok (tree.put (directory ++ [last]) .directory) := by
  have found : Position.lookUp ⟨maxLinks, tree.start path, front ++ [[]]⟩ tree (.find true) =
      .ok (.found directory .directory) := by
    rw [arrives.lookUp_append (.inl rfl), (Move.stay arrives.directory rfl).lookUp_eq,
      (Ends.found (isDirectory_iff.1 arrives.directory)).lookUp_eq]
  unfold Position.lookUp at found
  simp only [createDirectory, add, checked, filter_steps, names, List.getLast?_concat,
    List.dropLast_concat, found, bind, Except.bind]

/-- A path leads to a name that is free in a directory. -/
structure Vacancy (tree : Tree) (path : Path) (directory : Place) (last : FileName) : Prop where
  checked : checkPath path = .ok ()
  arrives : ∃ front left, path.names = front ++ [last] ∧
    Arrives tree ⟨maxLinks, tree.start path, front⟩ left directory
  isName : IsName last
  free : tree.at? (directory ++ [last]) = none

/-- A directory is made just where a name is free. -/
theorem createDirectory_eq_ok_iff :
    tree.createDirectory path = .ok after ↔
      ∃ directory last, Vacancy tree path directory last ∧
        after = tree.put (directory ++ [last]) .directory := by
  constructor
  · intro made
    have checked : checkPath path = .ok () := by
      cases refused : checkPath path with
      | ok _ => rfl
      | error error => simp [createDirectory_of_checkPath refused] at made
    rcases List.eq_nil_or_concat' path.names with none | ⟨front, last, names⟩
    · simp [createDirectory_of_names_nil checked none] at made
    · rcases arrives_or_error tree maxLinks (tree.start path) front with
        ⟨left, directory, arrives⟩ | ⟨error, refused⟩
      · rw [createDirectory_of_arrives checked names arrives] at made
        split_ifs at made with dots long taken
        simp only [Bool.or_eq_true, decide_eq_true_eq, not_or] at dots
        have isName : IsName last := ⟨leads_of_names names dots.1, dots.2, by omega⟩
        refine ⟨directory, last, ⟨checked, ⟨front, left, names, arrives⟩, isName, ?_⟩, ?_⟩
        · rwa [Bool.not_eq_true, Option.isSome_eq_false_iff, Option.isNone_iff_eq_none] at taken
        · exact (Except.ok.inj made).symm
      · simp [createDirectory_of_error checked names (refused [[]] (by simp))] at made
  · rintro ⟨directory, last, ⟨checked, ⟨front, left, names, arrives⟩, isName, free⟩, rfl⟩
    have notDot : last ≠ Path.dot := fun same => by
      have := isName.leads
      rw [same] at this
      contradiction
    rw [createDirectory_of_arrives checked names arrives, free, if_neg (by simp [notDot, isName.down]),
      if_neg (by have := isName.short; omega), if_neg (by simp)]

theorem Vacancy.way (vacancy : Vacancy tree path directory last) :
    ∃ front left, path.way = front ++ [last] ∧
      Arrives tree ⟨maxLinks, tree.start path, front⟩ left directory := by
  obtain ⟨front, left, names, arrives⟩ := vacancy.arrives
  refine ⟨front.filter leads, left, ?_, arrives.congr (by simp)⟩
  rw [← Path.filter_leads_names, names, List.filter_append,
    List.filter_cons_of_pos vacancy.isName.leads, List.filter_nil]

/-- A path reaches the directory that is made for it. -/
theorem Vacancy.reaches (vacancy : Vacancy tree path directory last) :
    (tree.put (directory ++ [last]) .directory).Reaches path (directory ++ [last]) := by
  obtain ⟨front, left, way, arrives⟩ := vacancy.way
  have grows := @grows_put tree directory last .directory vacancy.free
  refine ⟨left, ?_⟩
  rw [way, grows.start]
  exact arrives_append_iff.2 ⟨left, directory, arrives.grows grows,
    arrives_down (grows.isDirectory arrives.directory) vacancy.isName
      (isDirectory_iff.2 (at?_put_self (by simp)))⟩

/-- A directory can only be made in another one. -/
theorem Vacancy.reaches_above (vacancy : Vacancy tree path directory last)
    (lies : path.LiesIn above) : ∃ goal, tree.Reaches above goal := by
  obtain ⟨front, left, way, arrives⟩ := vacancy.way
  obtain ⟨other, same⟩ := lies.way
  obtain ⟨rfl, -⟩ := List.append_inj' (way.symm.trans same) rfl
  refine ⟨directory, left, ?_⟩
  rwa [start, lies.isAbsolute]

/-- No directory is made where a path reaches one. -/
theorem createDirectory_of_reaches (checked : checkPath path = .ok ())
    (reaches : tree.Reaches path goal) :
    tree.createDirectory path = .error .alreadyExists := by
  rcases List.eq_nil_or_concat' path.names with none | ⟨front, last, names⟩
  · exact createDirectory_of_names_nil checked none
  · obtain ⟨left, arrives⟩ := reaches
    have whole : Arrives tree ⟨maxLinks, tree.start path, front ++ [last]⟩ left goal :=
      arrives.congr (by rw [← names, Path.filter_leads_names, filter_leads_way])
    obtain ⟨between, middle, before, behind⟩ := arrives_append_iff.1 whole
    rw [createDirectory_of_arrives checked names before]
    split_ifs with dots long taken
    · rfl
    all_goals
      simp only [Bool.or_eq_true, decide_eq_true_eq, not_or] at dots
      obtain ⟨isName, some⟩ := behind.isSome_at? (leads_of_names names dots.1) dots.2
    · have := isName.short
      omega
    · rfl
    · contradiction

/-! ### What is added -/

/-- The second tree has more directories, and is the same otherwise. -/
structure AddsDirectories (tree after : Tree) : Prop where
  workingDirectory : after.workingDirectory = tree.workingDirectory
  at? : ∀ place, after.at? place = tree.at? place ∨
    tree.at? place = none ∧ after.at? place = some .directory
  closed : tree.Closed → after.Closed

namespace AddsDirectories

theorem refl (tree : Tree) : tree.AddsDirectories tree :=
  ⟨rfl, fun _ => .inl rfl, id⟩

theorem trans (first : tree.AddsDirectories other) (second : other.AddsDirectories after) :
    tree.AddsDirectories after where
  workingDirectory := second.workingDirectory.trans first.workingDirectory
  closed := second.closed ∘ first.closed
  at? place := by
    rcases first.at? place with same | ⟨none, some⟩
    · rcases second.at? place with again | ⟨none, some⟩
      · exact .inl (again.trans same)
      · exact .inr ⟨same ▸ none, some⟩
    · rcases second.at? place with again | ⟨absent, -⟩
      · exact .inr ⟨none, again.trans some⟩
      · rw [some] at absent
        contradiction

theorem grows (adds : tree.AddsDirectories after) : tree.Grows after := by
  refine ⟨adds.workingDirectory, fun place kind found => ?_⟩
  rcases adds.at? place with same | ⟨none, -⟩
  · rwa [Tree.kind?, same]
  · rw [kind?_eq_none_iff.2 none] at found
    contradiction

end AddsDirectories

theorem Vacancy.isDirectory (vacancy : Vacancy tree path directory last) :
    tree.isDirectory directory = true := by
  obtain ⟨_, _, _, arrives⟩ := vacancy.arrives
  exact arrives.directory

theorem addsDirectories_of_createDirectory (made : tree.createDirectory path = .ok after) :
    tree.AddsDirectories after := by
  obtain ⟨directory, last, vacancy, rfl⟩ := createDirectory_eq_ok_iff.1 made
  refine ⟨workingDirectory_put, fun place => ?_, fun closed => closed.put vacancy.isDirectory vacancy.free⟩
  by_cases here : place = directory ++ [last]
  · subst here
    exact .inr ⟨vacancy.free, at?_put_self (by simp)⟩
  · exact .inl (at?_put_of_ne (by simp) here)

/-! ### Trees that grow, and trees of the same shape -/

theorem holdsDirectory_grows (holds : tree.holdsDirectory path = true)
    (grows : tree.Grows grown) : grown.holdsDirectory path = true := by
  obtain ⟨checked, goal, reaches⟩ := holdsDirectory_iff.1 holds
  exact holdsDirectory_iff.2 ⟨checked, goal, reaches.grows grows⟩

theorem SameShape.holdsDirectory (same : tree.SameShape other) (path : Path) :
    other.holdsDirectory path = tree.holdsDirectory path :=
  Bool.eq_iff_iff.2 ⟨fun holds => holdsDirectory_grows holds same.symm.grows,
    fun holds => holdsDirectory_grows holds same.grows⟩

theorem createDirectory_of_sameShape (same : tree.SameShape other)
    (made : tree.createDirectory path = .ok after) :
    ∃ last, other.createDirectory path = .ok last ∧ after.SameShape last := by
  obtain ⟨directory, name, vacancy, rfl⟩ := createDirectory_eq_ok_iff.1 made
  refine ⟨_, createDirectory_eq_ok_iff.2 ⟨directory, name, ?_, rfl⟩, same.put (by simp)⟩
  obtain ⟨front, left, names, arrives⟩ := vacancy.arrives
  refine ⟨vacancy.checked, ⟨front, left, names, ?_⟩, vacancy.isName, ?_⟩
  · rw [same.grows.start]
    exact arrives.grows same.grows
  · rw [← kind?_eq_none_iff, same.kind?, kind?_eq_none_iff, vacancy.free]

theorem createDirectory_error_of_sameShape (same : tree.SameShape other)
    (failed : tree.createDirectory path = .error error) :
    other.createDirectory path = .error error := by
  cases checked : checkPath path with
  | error reason =>
    rw [createDirectory_of_checkPath checked] at failed ⊢
    exact failed
  | ok _ =>
    rcases List.eq_nil_or_concat' path.names with none | ⟨front, last, names⟩
    · rw [createDirectory_of_names_nil checked none] at failed ⊢
      exact failed
    · rcases arrives_or_error tree maxLinks (tree.start path) front with
        ⟨left, directory, arrives⟩ | ⟨reason, refused⟩
      · have arrivesOther : Arrives other ⟨maxLinks, other.start path, front⟩ left directory := by
          rw [same.grows.start]
          exact arrives.grows same.grows
        have taken : (other.at? (directory ++ [last])).isSome =
            (tree.at? (directory ++ [last])).isSome := by
          have kinds := congrArg Option.isSome (same.kind? (directory ++ [last]))
          simpa [kind?] using kinds
        rw [createDirectory_of_arrives checked names arrives] at failed
        rw [createDirectory_of_arrives checked names arrivesOther, taken]
        split_ifs at failed ⊢ <;> exact failed
      · have behind := refused [[]] (by simp)
        rw [createDirectory_of_error checked names behind] at failed
        refine createDirectory_of_error checked names ?_
        rw [same.grows.start, lookUp_error_of_sameShape same behind, Except.error.inj failed]

end

end Tree

end PolicyPages.Files
