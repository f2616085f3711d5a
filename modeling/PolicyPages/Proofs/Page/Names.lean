import PolicyPages.Page.Layout
import PolicyPages.Proofs.Path
import PolicyPages.Proofs.Topic

/-!
# When pages have the same name

The name of a package may hold separators, and then its page is in a directory below that of the
packages. Repeated separators do not count there, so two names of one topic stand for one page just when
they are the same with each run of separators as one (`names_packageName_inj`). Names of different topics
never stand for one page (`eq_of_names_packageName`), because no qualifier with its underscore begins
another.
-/

namespace PolicyPages.Path

open Text (Unit8)

/-- A text with each run of separators as one. -/
def oneSeparator : List Unit8 → List Unit8
  | [] => []
  | [unit] => [unit]
  | unit :: next :: rest =>
    if unit = separator ∧ next = separator then oneSeparator (next :: rest)
    else unit :: oneSeparator (next :: rest)

/-- The names in a text. -/
def namesIn (units : List Unit8) : List FileName :=
  (units.splitOn separator).filter (· ≠ [])

/-- What stands before the first separator. -/
def firstPiece (units : List Unit8) : FileName :=
  (units.splitOn separator).headD []

/-- The names behind the first separator. -/
def laterNames (units : List Unit8) : List FileName :=
  (units.splitOn separator).tail.filter (· ≠ [])

section

variable {unit : Unit8} {units others : List Unit8}

theorem splitOn_eq_cons (units : List Unit8) :
    units.splitOn separator = firstPiece units :: (units.splitOn separator).tail := by
  unfold firstPiece
  cases pieces : units.splitOn separator with
  | nil => exact absurd pieces (List.splitOn_ne_nil _ _)
  | cons first rest => rfl

theorem namesIn_eq (units : List Unit8) :
    namesIn units =
      if firstPiece units = [] then laterNames units
      else firstPiece units :: laterNames units := by
  rw [namesIn, splitOn_eq_cons, List.filter_cons]
  by_cases nothing : firstPiece units = []
  · simp [nothing, laterNames]
  · simp [nothing, laterNames]

@[simp] theorem firstPiece_separator : firstPiece (separator :: units) = [] := by
  rw [firstPiece, show (separator :: units).splitOn separator = [] :: units.splitOn separator from
    List.splitOn_append_cons_self [] units]
  rfl

@[simp] theorem laterNames_separator :
    laterNames (separator :: units) = namesIn units := by
  rw [laterNames, show (separator :: units).splitOn separator = [] :: units.splitOn separator from
    List.splitOn_append_cons_self [] units]
  rfl

theorem splitOn_cons_of_ne (other : unit ≠ separator) :
    (unit :: units).splitOn separator =
      (unit :: firstPiece units) :: (units.splitOn separator).tail := by
  rw [List.splitOn_cons_eq_if_modifyHead, if_neg (by simpa using other), splitOn_eq_cons units]
  rfl

theorem firstPiece_cons (other : unit ≠ separator) :
    firstPiece (unit :: units) = unit :: firstPiece units := by
  rw [firstPiece, splitOn_cons_of_ne other]
  rfl

theorem laterNames_cons (other : unit ≠ separator) :
    laterNames (unit :: units) = laterNames units := by
  rw [laterNames, splitOn_cons_of_ne other]
  rfl

theorem oneSeparator_cons (other : unit ≠ separator) :
    oneSeparator (unit :: units) = unit :: oneSeparator units := by
  cases units with
  | nil => rfl
  | cons next rest => rw [oneSeparator, if_neg fun both => other both.1]

/-- The names do not change when runs of separators are shortened. -/
theorem pieces_oneSeparator (units : List Unit8) :
    firstPiece (oneSeparator units) = firstPiece units ∧
      laterNames (oneSeparator units) = laterNames units := by
  induction units using oneSeparator.induct with
  | case1 => exact ⟨rfl, rfl⟩
  | case2 unit => exact ⟨rfl, rfl⟩
  | case3 unit next rest both ih =>
    obtain ⟨rfl, rfl⟩ := both
    rw [oneSeparator, if_pos ⟨rfl, rfl⟩, ih.1, ih.2]
    simp [namesIn_eq (separator :: rest)]
  | case4 unit next rest apart ih =>
    rw [oneSeparator, if_neg apart]
    by_cases first : unit = separator
    · subst first
      simp [namesIn_eq, ih]
    · rw [firstPiece_cons first, firstPiece_cons first, laterNames_cons first,
        laterNames_cons first, ih.1, ih.2]
      exact ⟨rfl, rfl⟩

/-- A text that does not end in a separator is its names with one separator before each but the
first. -/
theorem oneSeparator_eq (named : units.getLast? ≠ some separator) :
    oneSeparator units = firstPiece units ++ (laterNames units).flatMap (separator :: ·) := by
  induction units using oneSeparator.induct with
  | case1 => rfl
  | case2 unit =>
    have other : unit ≠ separator := by simpa using named
    rw [firstPiece_cons other, laterNames_cons other]
    rfl
  | case3 unit next rest both ih =>
    obtain ⟨rfl, rfl⟩ := both
    rw [oneSeparator, if_pos ⟨rfl, rfl⟩, ih (by simpa using named)]
    simp [namesIn_eq (separator :: rest)]
  | case4 unit next rest apart ih =>
    have ih := ih (by simpa using named)
    rw [oneSeparator, if_neg apart, ih]
    by_cases first : unit = separator
    · subst first
      have other : next ≠ separator := fun same => apart ⟨rfl, same⟩
      rw [firstPiece_separator, laterNames_separator, namesIn_eq, firstPiece_cons other]
      simp
    · rw [firstPiece_cons first, laterNames_cons first]
      rfl

/-- Two texts with names at both ends have the same names if they are the same with each run of
separators as one. -/
theorem namesIn_inj (first : firstPiece units ≠ []) (first' : firstPiece others ≠ [])
    (named : units.getLast? ≠ some separator) (named' : others.getLast? ≠ some separator) :
    namesIn units = namesIn others ↔ oneSeparator units = oneSeparator others := by
  rw [namesIn_eq, namesIn_eq, if_neg first, if_neg first', List.cons.injEq]
  constructor
  · rintro ⟨pieces, names⟩
    rw [oneSeparator_eq named, oneSeparator_eq named', pieces, names]
  · intro same
    have pieces := pieces_oneSeparator units
    rw [same, (pieces_oneSeparator others).1, (pieces_oneSeparator others).2] at pieces
    exact ⟨pieces.1.symm, pieces.2.symm⟩

/-- Around a text without separators, nothing is shortened. -/
theorem oneSeparator_append {front last : List Unit8} (unmarked : separator ∉ front) :
    oneSeparator (front ++ last) = front ++ oneSeparator last := by
  induction front with
  | nil => rfl
  | cons unit rest ih =>
    rw [List.mem_cons, not_or] at unmarked
    rw [List.cons_append, oneSeparator_cons (Ne.symm unmarked.1), ih unmarked.2]
    rfl

theorem oneSeparator_append_cons (other : unit ≠ separator) (units rest : List Unit8) :
    oneSeparator (units ++ unit :: rest) = oneSeparator units ++ unit :: oneSeparator rest := by
  induction units using oneSeparator.induct with
  | case1 => exact oneSeparator_cons other
  | case2 first =>
    have apart : ¬ (first = separator ∧ unit = separator) := fun both => other both.2
    show oneSeparator (first :: unit :: rest) = first :: unit :: oneSeparator rest
    rw [oneSeparator, if_neg apart, oneSeparator_cons other]
  | case3 first next tail both ih =>
    rw [List.cons_append, List.cons_append, oneSeparator, if_pos both, oneSeparator, if_pos both]
    exact ih
  | case4 first next tail apart ih =>
    rw [List.cons_append, List.cons_append, oneSeparator, if_neg apart, oneSeparator, if_neg apart,
      List.cons_append]
    exact congrArg _ ih

end

end PolicyPages.Path

namespace PolicyPages.Page

open PolicyPages.Path (LeadsDown dot dotDot firstPiece leads namesIn oneSeparator separator)

section

variable {topic other : Topic} {name another : String}

theorem units_ofText_append (a b : String) :
    (Path.ofText (a ++ b)).units = (Path.ofText a).units ++ (Path.ofText b).units := by
  simp [Path.ofText]

/-- What the name of a page begins with. -/
def opening (topic : Topic) : FileName :=
  (Path.ofText (topic.qualifier ++ "_")).units

/-- What the name of a page ends with. -/
def ending : FileName :=
  (Path.ofText ".adoc").units

theorem units_packageName (topic : Topic) (name : String) :
    (Path.ofText (packageName topic.qualifier name)).units =
      opening topic ++ ((Path.ofText name).units ++ ending) := by
  rw [packageName, units_ofText_append, units_ofText_append, List.append_assoc]
  rfl

/-- What openings are like: they hold no separator and no dot. -/
theorem opening_plain : ∀ topic ∈ Topic.all, separator ∉ opening topic ∧
    Text.Unit8.char '.' ∉ opening topic ∧ opening topic ≠ [] := by
  decide +kernel

/-- No opening begins another. -/
theorem eq_of_opening_begins : ∀ a ∈ Topic.all, ∀ b ∈ Topic.all,
    (opening a).isPrefixOf (opening b) = true → a = b := by
  decide +kernel

theorem firstPiece_append {front rest : FileName} (unmarked : separator ∉ front) :
    firstPiece (front ++ rest) = front ++ firstPiece rest := by
  induction front with
  | nil => rfl
  | cons unit front ih =>
    rw [List.mem_cons, not_or] at unmarked
    rw [List.cons_append, Path.firstPiece_cons (Ne.symm unmarked.1), ih unmarked.2]
    rfl

theorem firstPiece_packageName (mem : topic ∈ Topic.all) (name : String) :
    firstPiece (Path.ofText (packageName topic.qualifier name)).units =
      opening topic ++ firstPiece ((Path.ofText name).units ++ ending) := by
  rw [units_packageName, firstPiece_append (opening_plain topic mem).1]

theorem firstPiece_packageName_ne_nil (mem : topic ∈ Topic.all) (name : String) :
    firstPiece (Path.ofText (packageName topic.qualifier name)).units ≠ [] := by
  rw [firstPiece_packageName mem]
  simp [(opening_plain topic mem).2.2]

theorem getLast?_packageName (topic : Topic) (name : String) :
    (Path.ofText (packageName topic.qualifier name)).units.getLast? ≠ some separator := by
  rw [units_packageName, List.getLast?_append_of_ne_nil _ (by simp [ending, Path.ofText]),
    List.getLast?_append_of_ne_nil _ (by simp [ending, Path.ofText])]
  decide

/-- Names of one topic stand for one page just if they differ in the lengths of runs of separators
only. -/
theorem names_packageName_inj (mem : topic ∈ Topic.all) :
    (Path.ofText (packageName topic.qualifier name)).names =
        (Path.ofText (packageName topic.qualifier another)).names ↔
      oneSeparator (Path.ofText name).units = oneSeparator (Path.ofText another).units := by
  have shortened (name : String) :
      oneSeparator (Path.ofText (packageName topic.qualifier name)).units =
        opening topic ++ (oneSeparator (Path.ofText name).units ++ oneSeparator ending) := by
    rw [units_packageName, Path.oneSeparator_append (opening_plain topic mem).1]
    congr 1
    exact Path.oneSeparator_append_cons (by decide) _ _
  refine (Path.namesIn_inj (firstPiece_packageName_ne_nil mem name)
    (firstPiece_packageName_ne_nil mem another) (getLast?_packageName topic name)
    (getLast?_packageName topic another)).trans ?_
  rw [shortened, shortened, List.append_cancel_left_eq, List.append_cancel_right_eq]

/-- Names of different topics do not stand for one page. -/
theorem eq_of_names_packageName (mem : topic ∈ Topic.all) (mem' : other ∈ Topic.all)
    (same : (Path.ofText (packageName topic.qualifier name)).names =
      (Path.ofText (packageName other.qualifier another)).names) : topic = other := by
  have same : namesIn (Path.ofText (packageName topic.qualifier name)).units =
      namesIn (Path.ofText (packageName other.qualifier another)).units := same
  rw [Path.namesIn_eq, Path.namesIn_eq, if_neg (firstPiece_packageName_ne_nil mem name),
    if_neg (firstPiece_packageName_ne_nil mem' another), List.cons.injEq,
    firstPiece_packageName mem, firstPiece_packageName mem'] at same
  have left : opening topic <+: opening topic ++ firstPiece ((Path.ofText name).units ++ ending) :=
    List.prefix_append _ _
  rw [same.1] at left
  rcases List.prefix_or_prefix_of_prefix left (List.prefix_append _ _) with before | before
  · exact eq_of_opening_begins topic mem other mem' (List.isPrefixOf_iff_prefix.2 before)
  · exact (eq_of_opening_begins other mem' topic mem (List.isPrefixOf_iff_prefix.2 before)).symm

/-- In the name of a page, only the ending holds a dot. -/
theorem leadsDown_packageName (mem : topic ∈ Topic.all) (noDot : '.' ∉ name.toList) :
    ∀ part ∈ (Path.ofText (packageName topic.qualifier name)).names, LeadsDown part := by
  intro part inNames
  obtain ⟨inSegments, named⟩ := List.mem_filter.1 inNames
  rw [Path.segments, units_packageName, ← List.append_assoc] at inSegments
  have noDots : Text.Unit8.char '.' ∉ opening topic ++ (Path.ofText name).units := by
    rw [List.mem_append, not_or]
    exact ⟨(opening_plain topic mem).2.1, by simpa [Path.ofText] using noDot⟩
  -- The last name has the ending, which is longer than `.` and `..`; the others hold no dot.
  have other {dots : FileName} (short : ¬ ending <:+ dots) (dotted : Text.Unit8.char '.' ∈ dots) :
      part ≠ dots := by
    rintro rfl
    rcases Text.suffix_or_of_mem_splitOn (by decide) inSegments with suffix | inside
    · exact short suffix
    · exact noDots (inside _ dotted)
  refine ⟨?_, other (by decide) (by decide)⟩
  have notDot : part ≠ dot := other (by decide) (by decide)
  simpa [leads, notDot] using named

theorem front_packageName (mem : topic ∈ Topic.all) (name : String) :
    (Path.ofText (packageName topic.qualifier name)).front = [] := by
  have first := firstPiece_packageName mem name
  obtain ⟨unmarked, noDot, nonempty⟩ := opening_plain topic mem
  obtain ⟨unit, rest, opens⟩ := List.exists_cons_of_ne_nil nonempty
  have segments : (Path.ofText (packageName topic.qualifier name)).segments.head? =
      some (opening topic ++ firstPiece ((Path.ofText name).units ++ ending)) := by
    rw [Path.segments, Path.splitOn_eq_cons, first]
    rfl
  have relative : (Path.ofText (packageName topic.qualifier name)).isAbsolute = false := by
    rw [Path.isAbsolute, units_packageName, opens, List.cons_append, List.head?_cons]
    have other : unit ≠ separator := fun same => by simp [opens, same] at unmarked
    simpa using other
  have notDot : opening topic ++ firstPiece ((Path.ofText name).units ++ ending) ≠ dot := by
    rw [opens]
    intro same
    have : unit = .char '.' := (List.cons.inj same).1
    simp [opens, this] at noDot
  rw [Path.front, relative, segments, if_neg (by simp), if_neg (by simpa using notDot)]

end

end PolicyPages.Page
