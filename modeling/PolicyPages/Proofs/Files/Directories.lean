import PolicyPages.Proofs.Files.Directory

/-!
# Making directories, and making them again

A directory is made together with what is missing above it. If that succeeds, it succeeds again in every
tree that has grown since, and adds nothing (`createDirectories_again`). If it fails, it fails again and
adds nothing (`createDirectories_error_again`), and for the same reason, unless the path goes up behind
a name: then directories that were made may turn a reason into another.

For a path that does not turn back, what is made is an empty directory (`Fresh`), so that the next
name below it is free; only a name that is too long can stand in the way (`LongName`).
-/

namespace PolicyPages.Files.Tree

section

variable {tree grown other after : Tree} {path above : Path} {count : Nat} {error : Error}

/-! ### One directory, made or there -/

theorem ensureDirectory_of_holds (holds : tree.holdsDirectory path = true) :
    tree.ensureDirectory path = (.ok (), tree) := by
  obtain ⟨checked, goal, reaches⟩ := holdsDirectory_iff.1 holds
  rw [ensureDirectory, createDirectory_of_reaches checked reaches]
  simp [holds]

theorem ensureDirectory_of_error (failed : tree.createDirectory path = .error error)
    (holdsNot : tree.holdsDirectory path = false) :
    tree.ensureDirectory path = (.error error, tree) := by
  rw [ensureDirectory, failed]
  simp [holdsNot]

theorem of_ensureDirectory_error (h : tree.ensureDirectory path = (.error error, after)) :
    after = tree ∧ tree.createDirectory path = .error error ∧
      tree.holdsDirectory path = false := by
  unfold ensureDirectory at h
  cases made : tree.createDirectory path with
  | ok tree => simp [made] at h
  | error reason =>
    rw [made] at h
    cases holds : tree.holdsDirectory path with
    | true => simp [holds] at h
    | false =>
      simp only [holds, Bool.false_eq_true, if_false, Prod.mk.injEq, Except.error.injEq] at h
      exact ⟨h.2.symm, by rw [h.1], rfl⟩

/-- The directory was there, or it was made. -/
theorem of_ensureDirectory_ok (h : tree.ensureDirectory path = (.ok (), after)) :
    (after = tree ∧ tree.holdsDirectory path = true) ∨ tree.createDirectory path = .ok after := by
  unfold ensureDirectory at h
  cases made : tree.createDirectory path with
  | ok new =>
    rw [made] at h
    simp only [Prod.mk.injEq, true_and] at h
    exact .inr (congrArg Except.ok h)
  | error reason =>
    rw [made] at h
    cases holds : tree.holdsDirectory path with
    | true =>
      simp only [Prod.mk.injEq] at h
      exact .inl ⟨h.2.symm, rfl⟩
    | false => simp [holds] at h

theorem Vacancy.holdsDirectory {directory : Place} {last : FileName}
    (vacancy : Vacancy tree path directory last) :
    (tree.put (directory ++ [last]) .directory).holdsDirectory path = true :=
  holdsDirectory_iff.2 ⟨vacancy.checked, _, vacancy.reaches⟩

theorem holdsDirectory_of_ensureDirectory (h : tree.ensureDirectory path = (.ok (), after)) :
    after.holdsDirectory path = true := by
  rcases of_ensureDirectory_ok h with ⟨rfl, holds⟩ | made
  · exact holds
  · obtain ⟨directory, last, vacancy, rfl⟩ := createDirectory_eq_ok_iff.1 made
    exact vacancy.holdsDirectory

theorem addsDirectories_ensureDirectory {result : Except Error Unit}
    (h : tree.ensureDirectory path = (result, after)) : tree.AddsDirectories after := by
  cases result with
  | error error =>
    obtain ⟨rfl, -, -⟩ := of_ensureDirectory_error h
    exact .refl _
  | ok _ =>
    rcases of_ensureDirectory_ok h with ⟨rfl, -⟩ | made
    · exact .refl _
    · exact addsDirectories_of_createDirectory made

/-! ### What has to be made first -/

/-- A directory has to be made first, above another. -/
structure NeedsFirst (tree : Tree) (path above : Path) : Prop where
  missing : tree.createDirectory path = .error .notFound
  parent : path.parent? = some above
  nonempty : above.isEmpty = false

theorem NeedsFirst.liesIn (needs : NeedsFirst tree path above) : path.LiesIn above :=
  (Path.liesIn_of_parent? needs.parent).resolve_left (by simp [needs.nonempty])

theorem isEmpty_of_liesIn (lies : path.LiesIn above) (nonempty : above.isEmpty = false) :
    path.isEmpty = false := by
  cases empty : path.isEmpty with
  | false => rfl
  | true =>
    have none : path.units = [] := List.isEmpty_iff.1 empty
    have sublist := lies.units
    rw [none, List.sublist_nil] at sublist
    simp [Path.isEmpty, sublist] at nonempty

theorem checkPath_of_createDirectory (missing : tree.createDirectory path = .error .notFound)
    (nonempty : path.isEmpty = false) : checkPath path = .ok () := by
  cases refused : checkPath path with
  | ok _ => rfl
  | error reason =>
    rw [createDirectory_of_checkPath refused, Except.error.injEq] at missing
    subst missing
    simp only [checkPath, nonempty, Bool.false_eq_true, if_false] at refused
    split_ifs at refused <;> contradiction

theorem NeedsFirst.checked (needs : NeedsFirst tree path above) : checkPath path = .ok () :=
  checkPath_of_createDirectory needs.missing (isEmpty_of_liesIn needs.liesIn needs.nonempty)

theorem NeedsFirst.checked_above (needs : NeedsFirst tree path above) :
    checkPath above = .ok () :=
  checkPath_of_sublist needs.checked needs.nonempty needs.liesIn.units

theorem createDirectoriesWithin_of_needs (needs : NeedsFirst tree path above) :
    tree.createDirectoriesWithin (count + 1) path =
      match tree.createDirectoriesWithin count above with
      | (.error error, tree) => (.error error, tree)
      | (.ok (), tree) => tree.ensureDirectory path := by
  have opened := createDirectoriesWithin.eq_2 tree path count
  simp only [needs.missing, needs.parent, needs.nonempty, Bool.false_eq_true, if_false] at opened
  exact opened

theorem holdsDirectory_of_missing (missing : tree.createDirectory path = .error .notFound) :
    tree.holdsDirectory path = false := by
  cases holds : tree.holdsDirectory path with
  | false => rfl
  | true =>
    obtain ⟨checked, goal, reaches⟩ := holdsDirectory_iff.1 holds
    rw [createDirectory_of_reaches checked reaches] at missing
    contradiction

theorem createDirectoriesWithin_of_not_needs (done : ∀ above, ¬ NeedsFirst tree path above) :
    tree.createDirectoriesWithin (count + 1) path = tree.ensureDirectory path := by
  rw [createDirectoriesWithin]
  cases made : tree.createDirectory path with
  | ok after => rw [ensureDirectory, made]
  | error reason =>
    match reason with
    | .notFound =>
      cases parent : path.parent? with
      | none => exact (ensureDirectory_of_error made (holdsDirectory_of_missing made)).symm
      | some above =>
        cases empty : above.isEmpty with
        | true => simp only [empty, if_true]
        | false => exact absurd ⟨made, parent, empty⟩ (done above)
    | .alreadyExists | .notDirectory | .isDirectory | .nameTooLong | .tooManyLinks | .notText
    | .nulInName | .noSpace => rfl

/-! ### Success -/

theorem createDirectoriesWithin_of_holds (holds : tree.holdsDirectory path = true) :
    tree.createDirectoriesWithin count path = (.ok (), tree) := by
  have there := ensureDirectory_of_holds holds
  cases count with
  | zero => exact there
  | succ count =>
    refine (createDirectoriesWithin_of_not_needs fun above needs => ?_).trans there
    rw [holdsDirectory_of_missing needs.missing] at holds
    contradiction

/-- A directory that has to be made first is made with what is above it. -/
theorem of_createDirectoriesWithin_needs (needs : NeedsFirst tree path above)
    {result : Except Error Unit}
    (h : tree.createDirectoriesWithin (count + 1) path = (result, after)) :
    (∃ error, result = .error error ∧
        tree.createDirectoriesWithin count above = (.error error, after)) ∨
      ∃ between, tree.createDirectoriesWithin count above = (.ok (), between) ∧
        between.ensureDirectory path = (result, after) := by
  rw [createDirectoriesWithin_of_needs needs] at h
  rcases first : tree.createDirectoriesWithin count above with ⟨error | _, between⟩
  · simp only [first, Prod.mk.injEq] at h
    exact .inl ⟨error, h.1.symm, by rw [h.2]⟩
  · simp only [first] at h
    exact .inr ⟨between, rfl, h⟩

theorem holdsDirectory_of_createDirectoriesWithin
    (h : tree.createDirectoriesWithin count path = (.ok (), after)) :
    after.holdsDirectory path = true := by
  cases count with
  | zero => exact holdsDirectory_of_ensureDirectory h
  | succ count =>
    by_cases needs : ∃ above, NeedsFirst tree path above
    · obtain ⟨above, needs⟩ := needs
      rcases of_createDirectoriesWithin_needs needs h with ⟨error, failed, -⟩ | ⟨between, -, made⟩
      · contradiction
      · exact holdsDirectory_of_ensureDirectory made
    · rw [createDirectoriesWithin_of_not_needs (not_exists.1 needs)] at h
      exact holdsDirectory_of_ensureDirectory h

theorem addsDirectories_createDirectoriesWithin {result : Except Error Unit}
    (h : tree.createDirectoriesWithin count path = (result, after)) :
    tree.AddsDirectories after := by
  induction count generalizing path result after with
  | zero => exact addsDirectories_ensureDirectory h
  | succ count ih =>
    by_cases needs : ∃ above, NeedsFirst tree path above
    · obtain ⟨above, needs⟩ := needs
      rcases of_createDirectoriesWithin_needs needs h with ⟨error, -, failed⟩ | ⟨between, first, made⟩
      · exact ih failed
      · exact (ih first).trans (addsDirectories_ensureDirectory made)
    · rw [createDirectoriesWithin_of_not_needs (not_exists.1 needs)] at h
      exact addsDirectories_ensureDirectory h

/-! ### Failure -/

/-- A path reaches a directory in which nothing is, and has a name. -/
structure Fresh (tree : Tree) (path : Path) : Prop where
  reaches : ∃ goal, tree.Reaches path goal ∧ ∀ name, tree.at? (goal ++ [name]) = none
  named : ∃ name ∈ path.way, name ≠ Path.dotDot

/-- A path goes through a directory to a name that is too long. -/
structure LongName (tree : Tree) (path : Path) : Prop where
  stops : ∃ front name rest left goal, path.way = front ++ name :: rest ∧
    Arrives tree ⟨maxLinks, tree.start path, front⟩ left goal ∧ name ≠ Path.dotDot ∧
    maxNameLength < name.bytes.length

/-- A directory that is made is empty. -/
theorem Vacancy.fresh {directory : Place} {last : FileName} (closed : tree.Closed)
    (vacancy : Vacancy tree path directory last) :
    Fresh (tree.put (directory ++ [last]) .directory) path := by
  refine ⟨⟨_, vacancy.reaches, fun name => ?_⟩, last, ?_, vacancy.isName.down⟩
  · rw [at?_put_of_ne (by simp) (by simp)]
    exact closed.at?_below vacancy.free name
  · obtain ⟨front, left, way, -⟩ := vacancy.way
    simp [way]

/-- Nothing is reached below an empty directory. -/
theorem Fresh.holdsDirectory_eq_false (fresh : Fresh tree above) (lies : path.LiesIn above)
    (straight : path.turnsBack = false) : tree.holdsDirectory path = false := by
  obtain ⟨⟨place, reached, empty⟩, name, mem, other⟩ := fresh
  obtain ⟨last, way⟩ := lies.way
  have down : last ≠ Path.dotDot := Path.ne_dotDot_of_turnsBack straight way mem other
  cases holds : tree.holdsDirectory path with
  | false => rfl
  | true =>
    obtain ⟨-, goal, reaches⟩ := holdsDirectory_iff.1 holds
    obtain ⟨middle, reachesAbove, between, left, arrives⟩ := reaches.cut lies way
    obtain rfl := reached.unique reachesAbove
    have leading : Path.leads last = true := by
      have inWay : last ∈ path.way := by simp [way]
      exact (List.mem_filter.1 inWay).2
    have some := (arrives.isSome_at? leading down).2
    rw [empty] at some
    contradiction

theorem fresh_of_ensureDirectory (closed : tree.Closed)
    (h : tree.ensureDirectory path = (.ok (), after)) :
    (after = tree ∧ tree.holdsDirectory path = true) ∨ Fresh after path := by
  refine (of_ensureDirectory_ok h).imp_right fun made => ?_
  obtain ⟨directory, last, vacancy, rfl⟩ := createDirectory_eq_ok_iff.1 made
  exact vacancy.fresh closed

/-- What is made for a path that does not turn back is empty. -/
theorem fresh_of_createDirectoriesWithin (closed : tree.Closed) (straight : path.turnsBack = false)
    (h : tree.createDirectoriesWithin count path = (.ok (), after)) :
    after = tree ∨ Fresh after path := by
  induction count generalizing path after with
  | zero => exact (fresh_of_ensureDirectory closed h).imp_left And.left
  | succ count ih =>
    by_cases needs : ∃ above, NeedsFirst tree path above
    · obtain ⟨above, needs⟩ := needs
      rcases of_createDirectoriesWithin_needs needs h with ⟨error, failed, -⟩ | ⟨between, first, made⟩
      · contradiction
      · have closed := (addsDirectories_createDirectoriesWithin first).closed closed
        rcases fresh_of_ensureDirectory closed made with ⟨rfl, holds⟩ | fresh
        · rcases ih (Path.turnsBack_of_liesIn needs.liesIn straight) first with same | fresh
          · exact .inl same
          · rw [fresh.holdsDirectory_eq_false needs.liesIn straight] at holds
            contradiction
        · exact .inr fresh
    · rw [createDirectoriesWithin_of_not_needs (not_exists.1 needs)] at h
      exact (fresh_of_ensureDirectory closed h).imp_left And.left

theorem LongName.of_liesIn (long : LongName tree above) (lies : path.LiesIn above) :
    LongName tree path := by
  obtain ⟨front, name, rest, left, goal, way, arrives, down, tooLong⟩ := long
  obtain ⟨last, whole⟩ := lies.way
  refine ⟨front, name, rest ++ [last], left, goal, ?_, ?_, down, tooLong⟩
  · rw [whole, way, List.append_assoc]
    rfl
  · rwa [start, ← lies.isAbsolute]

theorem LongName.createDirectory_eq (long : LongName tree path)
    (checked : checkPath path = .ok ()) :
    tree.createDirectory path = .error .nameTooLong := by
  obtain ⟨front, name, rest, left, goal, way, arrives, down, tooLong⟩ := long
  -- The way is read off the names, where names that lead nowhere else may stand in between.
  rw [← Path.filter_leads_names] at way
  obtain ⟨before, behind, names, rfl, fromName⟩ := List.filter_eq_append_iff.1 way
  obtain ⟨between, others, rfl, still, leading, -⟩ := List.filter_eq_cons_iff.1 fromName
  have arrives : Arrives tree ⟨maxLinks, tree.start path, before ++ between⟩ left goal := by
    refine arrives.congr ?_
    rw [List.filter_append, List.filter_eq_nil_iff.2 still, List.append_nil, List.filter_filter]
    simp
  rw [← List.append_assoc] at names
  have notDot : name ≠ Path.dot := fun same => by
    rw [same] at leading
    contradiction
  rcases List.eq_nil_or_concat' others with rfl | ⟨init, last, rfl⟩
  · rw [createDirectory_of_arrives checked names arrives, if_neg (by simp [notDot, down]),
      if_pos tooLong]
  · have whole : path.names = (before ++ between ++ name :: init) ++ [last] := by simp [names]
    refine createDirectory_of_error checked whole ?_
    rw [List.append_assoc, arrives.lookUp_append (.inl rfl)]
    have ends : Ends tree (.find true) ⟨left, goal, name :: (init ++ [[]])⟩ (.error .nameTooLong) :=
      .tooLong arrives.directory leading down nofun tooLong
    exact ends.lookUp_eq

/-- Below an empty directory, only a name that is too long cannot be used. -/
theorem Fresh.longName (fresh : Fresh tree above) (lies : path.LiesIn above)
    (straight : path.turnsBack = false) (tidy : path.Tidy) (checked : checkPath path = .ok ())
    (failed : tree.createDirectory path = .error error) :
    error = .nameTooLong ∧ LongName tree path := by
  obtain ⟨⟨place, ⟨left, arrives⟩, empty⟩, name, mem, other⟩ := fresh
  obtain ⟨last, way⟩ := lies.way
  have down : last ≠ Path.dotDot := Path.ne_dotDot_of_turnsBack straight way mem other
  have leading : Path.leads last = true := by
    have inWay : last ∈ path.way := by simp [way]
    exact (List.mem_filter.1 inWay).2
  have notDot : last ≠ Path.dot := fun same => by
    rw [same] at leading
    contradiction
  rw [start, lies.isAbsolute] at arrives
  obtain ⟨front, names, same⟩ : ∃ front, path.names = front ++ [last] ∧
      front.filter Path.leads = above.way := by
    rcases tidy with names | names
    · exact ⟨above.way, names.trans way, filter_leads_way _⟩
    · refine ⟨Path.dot :: above.way, by rw [names, way]; rfl, ?_⟩
      rw [List.filter_cons_of_neg (by decide), filter_leads_way]
  have arrivesNames : Arrives tree ⟨maxLinks, tree.start path, front⟩ left place :=
    arrives.congr (by rw [same, filter_leads_way])
  rw [createDirectory_of_arrives checked names arrivesNames, empty,
    if_neg (by simp [notDot, down])] at failed
  split_ifs at failed with tooLong
  · exact ⟨(Except.error.inj failed).symm, above.way, last, [], left, place, way, arrives, down, tooLong⟩
  · contradiction

/-- What cannot be made below new directories has a name that is too long. -/
theorem longName_of_createDirectoriesWithin (closed : tree.Closed)
    (straight : path.turnsBack = false) (tidy : path.Tidy)
    (h : tree.createDirectoriesWithin count path = (.error error, after)) :
    after = tree ∨ error = .nameTooLong ∧ LongName after path := by
  induction count generalizing path after error with
  | zero => exact .inl (of_ensureDirectory_error h).1
  | succ count ih =>
    by_cases needs : ∃ above, NeedsFirst tree path above
    · obtain ⟨above, needs⟩ := needs
      have lies := needs.liesIn
      have straightAbove := Path.turnsBack_of_liesIn lies straight
      rcases of_createDirectoriesWithin_needs needs h with
        ⟨reason, same, failed⟩ | ⟨between, first, made⟩
      · obtain rfl := Except.error.inj same
        exact (ih straightAbove lies.tidy failed).imp_right fun ⟨same, long⟩ =>
          ⟨same, long.of_liesIn lies⟩
      · obtain ⟨rfl, failed, -⟩ := of_ensureDirectory_error made
        refine (fresh_of_createDirectoriesWithin closed straightAbove first).imp_right fun fresh => ?_
        exact fresh.longName lies straight tidy needs.checked failed
    · rw [createDirectoriesWithin_of_not_needs (not_exists.1 needs)] at h
      exact .inl (of_ensureDirectory_error h).1

theorem NeedsFirst.parent_eq {before : Tree} {first : Path} (needs : NeedsFirst tree path above)
    (other : NeedsFirst before path first) : first = above :=
  Option.some.inj (other.parent.symm.trans needs.parent)

/-- Nothing is made in what cannot be made. -/
theorem createDirectory_below_error (lies : path.LiesIn above)
    (checked : checkPath above = .ok ()) (holdsNot : tree.holdsDirectory above = false) :
    tree.holdsDirectory path = false ∧ ∃ error, tree.createDirectory path = .error error := by
  have notReached : ∀ goal, ¬ tree.Reaches above goal := fun goal reaches => by
    rw [holdsDirectory_iff.2 ⟨checked, goal, reaches⟩] at holdsNot
    contradiction
  constructor
  · cases holds : tree.holdsDirectory path with
    | false => rfl
    | true =>
      obtain ⟨-, goal, reaches⟩ := holdsDirectory_iff.1 holds
      obtain ⟨last, way⟩ := lies.way
      obtain ⟨middle, reachesAbove, -⟩ := reaches.cut lies way
      exact absurd reachesAbove (notReached middle)
  · cases made : tree.createDirectory path with
    | error error => exact ⟨error, rfl⟩
    | ok new =>
      obtain ⟨directory, last, vacancy, -⟩ := createDirectory_eq_ok_iff.1 made
      obtain ⟨goal, reaches⟩ := vacancy.reaches_above lies
      exact absurd reaches (notReached goal)

/-- If the path above cannot be made twice, neither can the path. Once more, the failure may be that of the
path itself, since what has been made above it is there. -/
theorem NeedsFirst.error_again {again : Error} (needs : NeedsFirst tree path above)
    (failed : tree.createDirectoriesWithin count above = (.error error, after))
    (repeated : after.createDirectoriesWithin count above = (.error again, after))
    (equal : tree.Closed → above.turnsBack = false → again = error) :
    ∃ other, after.createDirectoriesWithin (count + 1) path = (.error other, after) ∧
      (tree.Closed → path.turnsBack = false → other = error) := by
  have lies := needs.liesIn
  have notAbove : after.holdsDirectory above = false := by
    cases holds : after.holdsDirectory above with
    | false => rfl
    | true =>
      rw [createDirectoriesWithin_of_holds holds] at repeated
      simp at repeated
  obtain ⟨notPath, reason, refused⟩ := createDirectory_below_error lies needs.checked_above notAbove
  by_cases needsNow : ∃ other, NeedsFirst after path other
  · obtain ⟨other, needsNow⟩ := needsNow
    obtain rfl := needs.parent_eq needsNow
    refine ⟨again, ?_, fun closed straight => equal closed (Path.turnsBack_of_liesIn lies straight)⟩
    rw [createDirectoriesWithin_of_needs needsNow, repeated]
  · refine ⟨reason, ?_, fun closed straight => ?_⟩
    · rw [createDirectoriesWithin_of_not_needs (not_exists.1 needsNow)]
      exact ensureDirectory_of_error refused notPath
    · -- Something has been made, in which only a name that is too long stands in the way.
      rcases longName_of_createDirectoriesWithin closed
        (Path.turnsBack_of_liesIn lies straight) lies.tidy failed with rfl | ⟨rfl, long⟩
      · exact absurd ⟨above, needs⟩ needsNow
      · rw [(long.of_liesIn lies).createDirectory_eq needs.checked] at refused
        exact (Except.error.inj refused).symm

/-- If the path cannot be made in what is above it, it cannot be made again. -/
theorem NeedsFirst.error_again_inside (needs : NeedsFirst tree path above)
    (holds : after.holdsDirectory above = true)
    (failed : after.ensureDirectory path = (.error error, after)) :
    after.createDirectoriesWithin (count + 1) path = (.error error, after) := by
  by_cases needsNow : ∃ other, NeedsFirst after path other
  · obtain ⟨other, needsNow⟩ := needsNow
    obtain rfl := needs.parent_eq needsNow
    rw [createDirectoriesWithin_of_needs needsNow, createDirectoriesWithin_of_holds holds]
    exact failed
  · rw [createDirectoriesWithin_of_not_needs (not_exists.1 needsNow), failed]

/-- A failure to make directories is repeated, and nothing is made then. The reason is the same one if
the path does not turn back. -/
theorem createDirectoriesWithin_error_again
    (h : tree.createDirectoriesWithin count path = (.error error, after)) :
    ∃ again, after.createDirectoriesWithin count path = (.error again, after) ∧
      (tree.Closed → path.turnsBack = false → again = error) := by
  induction count generalizing path after error with
  | zero =>
    obtain ⟨rfl, -, -⟩ := of_ensureDirectory_error h
    exact ⟨error, h, fun _ _ => rfl⟩
  | succ count ih =>
    by_cases needs : ∃ above, NeedsFirst tree path above
    · obtain ⟨above, needs⟩ := needs
      rcases of_createDirectoriesWithin_needs needs h with
        ⟨reason, same, failed⟩ | ⟨between, first, made⟩
      · obtain rfl := Except.error.inj same
        obtain ⟨again, repeated, equal⟩ := ih failed
        exact needs.error_again failed repeated equal
      · obtain ⟨rfl, -, -⟩ := of_ensureDirectory_error made
        have holds := holdsDirectory_of_createDirectoriesWithin first
        exact ⟨error, needs.error_again_inside holds made, fun _ _ => rfl⟩
    · rw [createDirectoriesWithin_of_not_needs (not_exists.1 needs)] at h
      obtain ⟨rfl, -, -⟩ := of_ensureDirectory_error h
      refine ⟨error, ?_, fun _ _ => rfl⟩
      rw [createDirectoriesWithin_of_not_needs (not_exists.1 needs), h]

/-! ### Trees of the same shape -/

theorem ensureDirectory_of_sameShape (same : tree.SameShape other) {result : Except Error Unit}
    (h : tree.ensureDirectory path = (result, after)) :
    ∃ last, other.ensureDirectory path = (result, last) ∧ after.SameShape last := by
  cases result with
  | error error =>
    obtain ⟨rfl, failed, holdsNot⟩ := of_ensureDirectory_error h
    exact ⟨other, ensureDirectory_of_error (createDirectory_error_of_sameShape same failed)
      ((same.holdsDirectory path).trans holdsNot), same⟩
  | ok _ =>
    rcases of_ensureDirectory_ok h with ⟨rfl, holds⟩ | made
    · exact ⟨other, ensureDirectory_of_holds ((same.holdsDirectory path).trans holds), same⟩
    · obtain ⟨last, made, shape⟩ := createDirectory_of_sameShape same made
      exact ⟨last, by rw [ensureDirectory, made], shape⟩

theorem NeedsFirst.of_sameShape (same : tree.SameShape other)
    (needs : NeedsFirst tree path above) : NeedsFirst other path above :=
  ⟨createDirectory_error_of_sameShape same needs.missing, needs.parent, needs.nonempty⟩

/-- What is made, and whether it can be made, does not depend on the contents of files. -/
theorem createDirectoriesWithin_of_sameShape (same : tree.SameShape other)
    {result : Except Error Unit}
    (h : tree.createDirectoriesWithin count path = (result, after)) :
    ∃ last, other.createDirectoriesWithin count path = (result, last) ∧ after.SameShape last := by
  induction count generalizing path result after with
  | zero => exact ensureDirectory_of_sameShape same h
  | succ count ih =>
    by_cases needs : ∃ above, NeedsFirst tree path above
    · obtain ⟨above, needs⟩ := needs
      rw [createDirectoriesWithin_of_needs (needs.of_sameShape same)]
      rcases of_createDirectoriesWithin_needs needs h with
        ⟨reason, rfl, failed⟩ | ⟨between, first, made⟩
      · obtain ⟨last, again, shape⟩ := ih failed
        exact ⟨last, by rw [again], shape⟩
      · obtain ⟨middle, again, shape⟩ := ih first
        rw [again]
        exact ensureDirectory_of_sameShape shape made
    · have done : ∀ above, ¬ NeedsFirst other path above := fun above now =>
        needs ⟨above, now.of_sameShape same.symm⟩
      rw [createDirectoriesWithin_of_not_needs (not_exists.1 needs)] at h
      rw [createDirectoriesWithin_of_not_needs done]
      exact ensureDirectory_of_sameShape same h

/-! ### Making directories -/

theorem addsDirectories_createDirectories {result : Except Error Unit}
    (h : tree.createDirectories path = (result, after)) : tree.AddsDirectories after := by
  unfold createDirectories at h
  split at h
  · obtain ⟨-, rfl⟩ := Prod.mk.inj h
    exact .refl _
  · exact addsDirectories_createDirectoriesWithin h

/-- Directories that were made are there in every tree that has grown since. -/
theorem createDirectories_again (made : tree.createDirectories path = (.ok (), after))
    (grows : after.Grows grown) : grown.createDirectories path = (.ok (), grown) := by
  unfold createDirectories at made ⊢
  split
  · rfl
  · rename_i nonempty
    rw [if_neg nonempty] at made
    exact createDirectoriesWithin_of_holds
      (holdsDirectory_grows (holdsDirectory_of_createDirectoriesWithin made) grows)

/-- A failure to make directories is repeated in what it has left behind, and in every tree of this shape,
and nothing is made then. The reason is the same one if the path does not turn back. -/
theorem createDirectories_error_again
    (failed : tree.createDirectories path = (.error error, after)) (same : after.SameShape other) :
    ∃ again last, after.createDirectories path = (.error again, after) ∧
      other.createDirectories path = (.error again, last) ∧ other.SameShape last ∧
      (∀ place, last.at? place = other.at? place) ∧
      (tree.Closed → path.turnsBack = false → again = error) := by
  unfold createDirectories at failed ⊢
  split at failed
  · simp at failed
  · rename_i nonempty
    obtain ⟨again, here, equal⟩ := createDirectoriesWithin_error_again failed
    obtain ⟨last, repeated, shape⟩ := createDirectoriesWithin_of_sameShape same here
    have shapeLast := same.symm.trans shape
    refine ⟨again, last, by rw [if_neg nonempty, here], by rw [if_neg nonempty, repeated], shapeLast,
      fun place => ?_, equal⟩
    refine ((addsDirectories_createDirectoriesWithin repeated).at? place).resolve_right ?_
    rintro ⟨none, some⟩
    have kinds := shapeLast.kind? place
    rw [kind?_eq_none_iff.2 none, kind?_eq_none_iff, some] at kinds
    contradiction

end

end PolicyPages.Files.Tree
