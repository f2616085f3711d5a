import Mathlib.Data.List.Basic
import Mathlib.Data.List.TakeWhile
import PolicyPages.Path
import PolicyPages.Text.Pieces

/-!
# The names of a path

The *way* of a path is the list of the names that lead somewhere else: no empty name and no `.` stands
in it. A path is compared by its way and by what stands in front of it (`components_eq`). Joining
appends ways (`way_join`), and the path above another has its way without the last name
(`LiesIn`, `liesIn_of_parent?`).
-/

namespace PolicyPages.Path

open Text (Unit8 intercalate_sublist)

/-- The names of a path, without the empty ones. -/
def names (path : Path) : List FileName :=
  path.segments.filter (· ≠ [])

/-- Whether a name leads somewhere else. -/
def leads (name : FileName) : Bool :=
  name ≠ [] && name ≠ dot

/-- The names of a path that lead somewhere else. -/
def way (path : Path) : List FileName :=
  path.segments.filter leads

/-- The component of a name that leads somewhere else. -/
def componentOf (name : FileName) : Component :=
  if name = dotDot then .up else .name name

/-- What stands in front of the way: the root, a `.`, or nothing. -/
def front (path : Path) : List Component :=
  if path.isAbsolute then [.root] else if path.segments.head? = some dot then [.here] else []

@[simp] theorem filter_leads_names (path : Path) : path.names.filter leads = path.way := by
  rw [names, way, List.filter_filter]
  congr 1
  funext name
  by_cases empty : name = []
  · simp [empty, leads]
  · simp [empty]

theorem component?_eq (name : FileName) :
    component? name = if leads name then some (componentOf name) else none := by
  unfold component? leads componentOf
  by_cases empty : name = []
  · simp [empty]
  · by_cases same : name = dot
    · simp [same]
    · simp [empty, same, apply_ite some]

/-- A path is compared by what stands in front of its way, and by its way. -/
theorem components_eq (path : Path) :
    path.components = path.front ++ path.way.map componentOf := by
  have named : path.segments.filterMap component? = path.way.map componentOf := by
    unfold way
    induction path.segments with
    | nil => rfl
    | cons name rest ih =>
      rw [List.filterMap_cons, List.filter_cons, component?_eq]
      cases leads name <;> simp [ih]
  unfold components front
  rw [named]
  split
  · rfl
  · split <;> rfl

@[simp] theorem units_componentOf (name : FileName) : (componentOf name).units = name := by
  unfold componentOf
  split
  · rename_i same
    rw [same, Component.units]
  · rfl

/-! ### Segments -/

theorem segments_of_units_eq_nil {path : Path} (h : path.units = []) : path.segments = [[]] := by
  rw [segments, h, List.splitOn_nil]

/-- An absolute path has an empty segment first. -/
theorem exists_segments_of_isAbsolute {path : Path} (h : path.isAbsolute = true) :
    ∃ rest, path.segments = [] :: rest ∧ rest ≠ [] := by
  unfold isAbsolute at h
  cases units : path.units with
  | nil => simp [units] at h
  | cons first rest =>
    obtain rfl : first = separator := by simpa [units] using h
    refine ⟨rest.splitOn separator, ?_, List.splitOn_ne_nil _ _⟩
    rw [segments, units]
    exact List.splitOn_append_cons_self [] rest

theorem separator_notMem_of_mem_segments {path : Path} {name : FileName}
    (h : name ∈ path.segments) : separator ∉ name :=
  fun mem => (Text.mem_of_mem_splitOn h _ mem).1 rfl

theorem intercalate_segments (path : Path) : [separator].intercalate path.segments = path.units :=
  List.intercalate_splitOn _

theorem way_sublist_segments (path : Path) : path.way.Sublist path.segments :=
  List.filter_sublist

/-! ### Joining -/

section

variable {base path : Path}

/-- The segments of a joined path, without the empty ones, are those of its two parts. -/
theorem filter_segments_join (relative : path.isAbsolute = false) {keeps : FileName → Bool}
    (notEmpty : keeps [] = false) :
    (base.join path).segments.filter keeps =
      base.segments.filter keeps ++ path.segments.filter keeps := by
  unfold join
  rw [if_neg (by simp [relative])]
  -- Where a separator ends the first path, its last segment is empty, and so is dropped.
  split
  · rename_i ends
    rcases Bool.or_eq_true_iff.1 ends with empty | separated
    · have nothing : base.units = [] := List.isEmpty_iff.1 empty
      rw [segments_of_units_eq_nil nothing, segments, nothing]
      simp [notEmpty, segments]
    · obtain ⟨start, whole⟩ : ∃ start, base.units = start ++ [separator] :=
        List.getLast?_eq_some_iff.1 (of_decide_eq_true separated)
      have below : base.segments = start.splitOn separator ++ [[]] := by
        rw [segments, whole, List.splitOn_append_cons_self, List.splitOn_nil]
      rw [below, segments, segments]
      simp only [whole, List.append_assoc, List.cons_append, List.nil_append]
      rw [List.splitOn_append_cons_self]
      simp [notEmpty]
  · rw [segments, List.splitOn_append_cons_self, List.filter_append]
    rfl

theorem names_join (relative : path.isAbsolute = false) :
    (base.join path).names = base.names ++ path.names :=
  filter_segments_join relative (by simp)

theorem way_join (relative : path.isAbsolute = false) :
    (base.join path).way = base.way ++ path.way :=
  filter_segments_join relative (by simp [leads])

theorem join_of_isEmpty (empty : base.isEmpty = true) : base.join path = path := by
  have nothing : base.units = [] := List.isEmpty_iff.1 empty
  unfold join
  split
  · rfl
  · rw [if_pos (by simp [empty]), nothing]
    rfl

theorem join_of_isAbsolute (absolute : path.isAbsolute = true) : base.join path = path :=
  if_pos absolute

/-- A text as it stands in front of a relative path that is joined to it. -/
def opened (units : List Unit8) : List Unit8 :=
  if units.isEmpty || units.getLast? = some separator then units else units ++ [separator]

theorem exists_opened_eq {units : List Unit8} (nonempty : units ≠ []) :
    ∃ start, opened units = start ++ [separator] := by
  unfold opened
  rw [List.isEmpty_eq_false_iff.2 nonempty, Bool.false_or]
  split
  · rename_i ends
    exact List.getLast?_eq_some_iff.1 (of_decide_eq_true ends)
  · exact ⟨units, rfl⟩

theorem opened_opened (units : List Unit8) : opened (opened units) = opened units := by
  by_cases ends : (units.isEmpty || units.getLast? = some separator) = true
  · rw [opened, opened, if_pos ends, if_pos ends]
  · have closes : opened units = units ++ [separator] := if_neg ends
    rw [closes, opened, if_pos (by simp)]

theorem opened_append (front : List Unit8) {units : List Unit8} (nonempty : units ≠ []) :
    opened (front ++ units) = front ++ opened units := by
  have filled : (front ++ units).isEmpty = units.isEmpty := by
    rw [List.isEmpty_eq_false_iff.2 nonempty, List.isEmpty_eq_false_iff.2]
    exact List.append_ne_nil_of_right_ne_nil front nonempty
  rw [opened, opened, filled, List.getLast?_append_of_ne_nil _ nonempty]
  split
  · rfl
  · exact List.append_assoc ..

theorem units_join (relative : path.isAbsolute = false) :
    (base.join path).units = opened base.units ++ path.units := by
  unfold join opened
  rw [if_neg (by simp [relative])]
  show (if (base.units.isEmpty || _) = true then _ else _ : Path).units = _
  split
  · rfl
  · exact List.append_cons ..

/-- The last unit of a joined path is that of what is joined. -/
theorem getLast?_join (nonempty : path.units ≠ []) :
    (base.join path).units.getLast? = path.units.getLast? := by
  cases absolute : path.isAbsolute with
  | true => rw [join_of_isAbsolute absolute]
  | false => rw [units_join absolute, List.getLast?_append_of_ne_nil _ nonempty]

theorem head?_append_of_ne_nil {α : Type} {xs : List α} (h : xs ≠ []) (ys : List α) :
    (xs ++ ys).head? = xs.head? := by
  rw [List.head?_append, Option.or_of_isSome (List.isSome_head?.2 h)]

theorem isAbsolute_join (relative : path.isAbsolute = false) :
    (base.join path).isAbsolute = base.isAbsolute := by
  cases empty : base.isEmpty with
  | true =>
    have nothing : base.units = [] := List.isEmpty_iff.1 empty
    rw [join_of_isEmpty empty, relative, isAbsolute, nothing]
    rfl
  | false =>
    have units : base.units ≠ [] := fun nothing => by simp [isEmpty, nothing] at empty
    unfold join isAbsolute
    rw [if_neg (by simpa [isAbsolute] using relative)]
    split <;> rw [head?_append_of_ne_nil units]

theorem join_assoc (base path other : Path) :
    (base.join path).join other = base.join (path.join other) := by
  cases absolute : other.isAbsolute with
  | true =>
    -- An absolute path takes the place of all that stands before it.
    rw [join_of_isAbsolute absolute, join_of_isAbsolute absolute, join_of_isAbsolute absolute]
  | false =>
    have front : (path.join other).isAbsolute = path.isAbsolute := isAbsolute_join absolute
    cases rooted : path.isAbsolute with
    | true => rw [join_of_isAbsolute rooted, join_of_isAbsolute (front.trans rooted)]
    | false =>
      have middle : opened (opened base.units ++ path.units) =
          opened base.units ++ opened path.units := by
        by_cases nothing : path.units = []
        · rw [nothing, List.append_nil, opened_opened]
          exact (List.append_nil _).symm
        · exact opened_append _ nothing
      have units : ((base.join path).join other).units = (base.join (path.join other)).units := by
        rw [units_join absolute, units_join rooted, middle, units_join (front.trans rooted),
          units_join absolute, List.append_assoc]
      exact congrArg Path.mk units

/-- What follows a path that is not empty does not change what stands in front. -/
theorem front_join (relative : path.isAbsolute = false) (nonempty : base.isEmpty = false) :
    (base.join path).front = base.front := by
  have first : (base.join path).segments.head? = base.segments.head? := by
    unfold join
    rw [if_neg (by simp [relative])]
    split
    · rename_i ends
      rw [nonempty, Bool.false_or, decide_eq_true_iff] at ends
      obtain ⟨start, whole⟩ := List.getLast?_eq_some_iff.1 ends
      simp only [segments, whole, List.append_assoc, List.cons_append, List.nil_append]
      rw [List.splitOn_append_cons_self, List.splitOn_append_cons_self,
        head?_append_of_ne_nil (List.splitOn_ne_nil _ _),
        head?_append_of_ne_nil (List.splitOn_ne_nil _ _)]
    · simp only [segments]
      rw [List.splitOn_append_cons_self, head?_append_of_ne_nil (List.splitOn_ne_nil _ _)]
  rw [front, front, isAbsolute_join relative, first]

theorem isAbsolute_of_front (plain : path.front = []) : path.isAbsolute = false := by
  cases absolute : path.isAbsolute with
  | false => rfl
  | true => simp [front, absolute] at plain

/-- Joining appends components, if the second path does not begin with a `.`. -/
theorem components_join (plain : path.front = []) :
    (base.join path).components = base.components ++ path.components := by
  have relative := isAbsolute_of_front plain
  cases empty : base.isEmpty with
  | true =>
    have nothing : base.components = [] := by
      have units : base.units = [] := List.isEmpty_iff.1 empty
      simp [components, segments_of_units_eq_nil units, isAbsolute, units, component?, dot]
    rw [join_of_isEmpty empty, nothing, List.nil_append]
  | false =>
    rw [components_eq, components_eq base, components_eq path, front_join relative empty,
      way_join relative, plain]
    simp

end

/-! ### Paths below another -/

/-- A name that leads down: it is not empty, and neither `.` nor `..`. -/
def LeadsDown (name : FileName) : Prop :=
  leads name = true ∧ name ≠ dotDot

instance (name : FileName) : Decidable (LeadsDown name) :=
  inferInstanceAs (Decidable (_ ∧ _))

theorem leadsDown_of_length {name : FileName} (long : 2 < name.length) : LeadsDown name := by
  have other {short : FileName} (length : short.length ≤ 2) : name ≠ short := by
    rintro rfl
    exact absurd long (Nat.not_lt.2 length)
  have named : name ≠ [] := other (by decide)
  have notDot : name ≠ dot := other (by decide)
  exact ⟨by simp [leads, named, notDot], other (by decide)⟩

/-- A path ends in its last segment, if this leads down. -/
theorem fileName_eq_of_getLast? {path : Path} {name : FileName}
    (last : path.segments.getLast? = some name) (down : LeadsDown name) : path.fileName = name := by
  obtain ⟨front, whole⟩ := List.getLast?_eq_some_iff.1 last
  have component : component? name = some (.name name) := by
    rw [component?_eq, if_pos down.1, componentOf, if_neg down.2]
  have named : path.segments.filterMap component? =
      front.filterMap component? ++ [.name name] := by
    rw [whole, List.filterMap_append, List.filterMap_cons_some component, List.filterMap_nil]
  have ends : path.components.getLast? = some (.name name) := by
    unfold components
    rw [named]
    split
    · exact List.getLast?_concat (l := Component.root :: front.filterMap component?)
    · split
      · exact List.getLast?_concat (l := Component.here :: front.filterMap component?)
      · exact List.getLast?_concat
  rw [fileName, ends]

/-- The last segment of a joined path is that of what is joined. -/
theorem getLast?_segments_join (base path : Path) :
    (base.join path).segments.getLast? = path.segments.getLast? := by
  cases absolute : path.isAbsolute with
  | true => rw [join_of_isAbsolute absolute]
  | false =>
    cases empty : base.isEmpty with
    | true => rw [join_of_isEmpty empty]
    | false =>
      have nonempty : base.units ≠ [] := List.isEmpty_eq_false_iff.1 empty
      obtain ⟨start, front⟩ := exists_opened_eq nonempty
      rw [segments, units_join absolute, front, List.append_assoc, List.singleton_append,
        List.splitOn_append_cons_self, List.getLast?_append_of_ne_nil _ (List.splitOn_ne_nil _ _)]
      rfl

/-- The first path is the second one with more names, all of which lead down. -/
structure Extends (path base : Path) (below : List FileName) : Prop where
  isAbsolute : path.isAbsolute = base.isAbsolute
  names : path.names = base.names ++ below
  components : path.components = base.components ++ below.map .name
  down : ∀ name ∈ below, LeadsDown name

theorem Extends.refl (path : Path) : path.Extends path [] :=
  ⟨rfl, (List.append_nil _).symm, (List.append_nil _).symm, by simp⟩

/-- What is joined to a path below another is below that too. -/
theorem Extends.join {path base above : Path} {below : List FileName}
    (h : base.Extends above below) (plain : path.front = [])
    (down : ∀ name ∈ path.names, LeadsDown name) :
    (base.join path).Extends above (below ++ path.names) := by
  have relative := isAbsolute_of_front plain
  have way : path.way = path.names := by
    rw [← filter_leads_names, List.filter_eq_self]
    exact fun name mem => (down name mem).1
  have components : path.components = path.names.map .name := by
    rw [components_eq, plain, way, List.nil_append]
    refine List.map_congr_left fun name mem => ?_
    rw [componentOf, if_neg (down name mem).2]
  refine ⟨(isAbsolute_join relative).trans h.isAbsolute, ?_, ?_, ?_⟩
  · rw [names_join relative, h.names, List.append_assoc]
  · rw [components_join plain, h.components, components, List.map_append, List.append_assoc]
  · exact List.forall_mem_append.2 ⟨h.down, down⟩

theorem Extends.way {path base : Path} {below : List FileName} (h : path.Extends base below) :
    path.way = base.way ++ below := by
  rw [← filter_leads_names, h.names, List.filter_append, filter_leads_names,
    List.filter_eq_self.2 fun name mem => (h.down name mem).1]

/-! ### The path above -/

/-- The path ends in the last name of its way, if it has one: only a `.` at the front is no part of the
way. -/
def Tidy (path : Path) : Prop :=
  path.names = path.way ∨ path.names = dot :: path.way

/-- The first path lies right below the second, which is a part of it. -/
structure LiesIn (path above : Path) : Prop where
  isAbsolute : above.isAbsolute = path.isAbsolute
  way : ∃ last, path.way = above.way ++ [last]
  units : above.units.Sublist path.units
  tidy : above.Tidy

theorem segments_of_units {path : Path} {pieces : List FileName} (nonempty : pieces ≠ [])
    (apart : ∀ piece ∈ pieces, separator ∉ piece)
    (units : path.units = [separator].intercalate pieces) : path.segments = pieces := by
  rw [segments, units, List.splitOn_intercalate _ apart nonempty]

section

variable {path : Path} {front : List FileName} {last : FileName}

/-- The path above one with a way has the way without its last name. -/
theorem parent?_eq_of_way (whole : path.way = front ++ [last]) :
    path.parent? = some (ofComponents (path.front ++ front.map componentOf)) := by
  have components : path.components =
      (path.front ++ front.map componentOf) ++ [componentOf last] := by
    rw [components_eq, whole, List.map_append, List.append_assoc]
    rfl
  unfold parent?
  rw [components, List.getLast?_concat, List.dropLast_concat]
  unfold componentOf
  split
  · rename_i heq
    split at heq <;> simp at heq
  · rename_i heq
    split at heq <;> simp at heq
  · rfl

theorem units_ofComponents (front : List FileName) :
    (ofComponents (front.map componentOf)).units = [separator].intercalate front := by
  cases front with
  | nil => rfl
  | cons first rest =>
    have named : ∀ rest, ofComponents (componentOf first :: rest) =
        ⟨[separator].intercalate ((componentOf first :: rest).map Component.units)⟩ := by
      intro rest
      unfold componentOf
      split <;> rfl
    rw [List.map_cons, named]
    simp [Function.comp_def]

theorem liesIn_of_names {above : Path} (whole : path.way = front ++ [last])
    (absolute : above.isAbsolute = path.isAbsolute)
    (names : above.names = front ∨ above.names = dot :: front)
    (units : above.units.Sublist path.units) : path.LiesIn above := by
  have lead : ∀ name ∈ front, leads name = true := by
    intro name mem
    have inWay : name ∈ path.way := by simp [whole, mem]
    exact (List.mem_filter.1 inWay).2
  have way : above.way = front := by
    rw [← filter_leads_names]
    rcases names with names | names
    · rw [names, List.filter_eq_self.2 lead]
    · rw [names, List.filter_cons_of_neg (by decide), List.filter_eq_self.2 lead]
  refine ⟨absolute, ⟨last, way ▸ whole⟩, units, ?_⟩
  rw [Tidy, way]
  exact names

theorem of_mem_front (whole : path.way = front ++ [last]) :
    ∀ name ∈ front, name ≠ [] ∧ separator ∉ name := by
  intro name mem
  have inWay : name ∈ path.way := by simp [whole, mem]
  obtain ⟨inSegments, lead⟩ := List.mem_filter.1 inWay
  exact ⟨fun empty => by simp [leads, empty] at lead, separator_notMem_of_mem_segments inSegments⟩

theorem filter_front (whole : path.way = front ++ [last]) : front.filter (· ≠ []) = front :=
  List.filter_eq_self.2 fun name mem => decide_eq_true (of_mem_front whole name mem).1

theorem front_sublist_segments (whole : path.way = front ++ [last]) :
    front.Sublist path.segments :=
  (whole ▸ List.sublist_append_left front [last]).trans (way_sublist_segments path)

/-- An absolute path lies below one that has an empty segment before its names. -/
theorem liesIn_root (whole : path.way = front ++ [last]) (absolute : path.isAbsolute = true) :
    path.LiesIn (ofComponents (.root :: front.map componentOf)) := by
  obtain ⟨rest, segments, -⟩ := exists_segments_of_isAbsolute absolute
  have units : (ofComponents (.root :: front.map componentOf)).units =
      separator :: [separator].intercalate front := by
    simp [ofComponents, Function.comp_def]
  have head : (ofComponents (.root :: front.map componentOf)).isAbsolute = path.isAbsolute := by
    rw [absolute]
    rfl
  cases front with
  | nil =>
    refine liesIn_of_names whole head (.inl rfl) (List.singleton_sublist.2 ?_)
    exact List.mem_of_mem_head? (of_decide_eq_true absolute)
  | cons first others =>
    have split := segments_of_units (List.cons_ne_nil [] (first :: others))
      (List.forall_mem_cons.2 ⟨by simp, fun name mem => (of_mem_front whole name mem).2⟩) units
    refine liesIn_of_names whole head (.inl ?_) ?_
    · rw [names, split, List.filter_cons_of_neg (by simp), filter_front whole]
    · rw [← intercalate_segments path, ← intercalate_segments, split, segments]
      refine intercalate_sublist _ (.cons_cons _ ?_)
      have below := front_sublist_segments whole
      rw [segments] at below
      exact (List.sublist_cons_iff.1 below).resolve_right fun ⟨_, same, _⟩ =>
        (of_mem_front whole first List.mem_cons_self).1 (List.cons.inj same).1

theorem isAbsolute_of_segments {first : FileName} {rest : List FileName}
    (segments : path.segments = first :: rest) (named : first ≠ []) : path.isAbsolute = false := by
  cases absolute : path.isAbsolute with
  | false => rfl
  | true =>
    obtain ⟨others, whole, -⟩ := exists_segments_of_isAbsolute absolute
    rw [segments, List.cons.injEq] at whole
    exact absurd whole.1 named

/-- A path with a `.` at the front lies below one with a `.` at the front. -/
theorem liesIn_here (whole : path.way = front ++ [last]) (here : path.segments.head? = some dot) :
    path.LiesIn (ofComponents (.here :: front.map componentOf)) := by
  obtain ⟨rest, segments⟩ := List.head?_eq_some_iff.1 here
  have units : (ofComponents (.here :: front.map componentOf)).units =
      [separator].intercalate (dot :: front) := by
    show [separator].intercalate (dot :: (front.map componentOf).map Component.units) = _
    simp [Function.comp_def]
  have split := segments_of_units (List.cons_ne_nil dot front)
    (List.forall_mem_cons.2 ⟨by decide, fun name mem => (of_mem_front whole name mem).2⟩) units
  refine liesIn_of_names whole ?_ (.inr ?_) ?_
  · rw [isAbsolute_of_segments split (by decide), isAbsolute_of_segments segments (by decide)]
  · rw [names, split, List.filter_cons_of_pos (by decide), filter_front whole]
  · rw [← intercalate_segments path, units, segments]
    refine intercalate_sublist _ (.cons_cons _ ?_)
    have below : path.way.Sublist rest := by
      rw [way, segments, List.filter_cons_of_neg (by decide)]
      exact List.filter_sublist
    exact (whole ▸ List.sublist_append_left front [last]).trans below

/-- A path with nothing in front of its way lies below one that is written as its way. -/
theorem liesIn_plain (whole : path.way = front ++ [last]) (relative : path.isAbsolute = false)
    (nonempty : front ≠ []) : path.LiesIn (ofComponents (front.map componentOf)) := by
  have units := units_ofComponents front
  have split := segments_of_units nonempty
    (fun name mem => (of_mem_front whole name mem).2) units
  obtain ⟨first, others, rfl⟩ := List.exists_cons_of_ne_nil nonempty
  refine liesIn_of_names whole ?_ (.inl ?_) ?_
  · rw [relative]
    exact isAbsolute_of_segments split (of_mem_front whole first List.mem_cons_self).1
  · rw [names, split, filter_front whole]
  · rw [← intercalate_segments path, units]
    exact intercalate_sublist _ (front_sublist_segments whole)

end

/-- What is above a path is empty, or the path lies right below it. -/
theorem liesIn_of_parent? {path above : Path} (h : path.parent? = some above) :
    above.isEmpty = true ∨ path.LiesIn above := by
  rcases List.eq_nil_or_concat' path.way with none | ⟨front, last, whole⟩
  · have components : path.components = path.front := by simp [components_eq, none]
    unfold parent? at h
    rw [components, Path.front] at h
    left
    split_ifs at h <;> simp_all [isEmpty, ofComponents]
    rw [← h]
  · rw [parent?_eq_of_way whole, Option.some.injEq] at h
    subst h
    unfold Path.front
    split_ifs with absolute here
    · exact .inr (liesIn_root whole absolute)
    · exact .inr (liesIn_here whole here)
    · rw [Bool.not_eq_true] at absolute
      by_cases nothing : front = []
      · subst nothing
        exact .inl rfl
      · exact .inr (liesIn_plain whole absolute nothing)

/-! ### Going up -/

/-- Whether a `..` stands in the way after another name. -/
def turnsBack (path : Path) : Bool :=
  (path.way.dropWhile (· = dotDot)).contains dotDot

section

variable {path above : Path}

theorem turnsBack_of_liesIn (lies : path.LiesIn above) (h : path.turnsBack = false) :
    above.turnsBack = false := by
  obtain ⟨last, whole⟩ := lies.way
  unfold turnsBack at h ⊢
  rw [whole, List.dropWhile_append] at h
  split at h
  · rename_i nothing
    rw [List.isEmpty_iff.1 nothing]
    rfl
  · rw [List.contains_append, Bool.or_eq_false_iff] at h
    exact h.1

/-- If a path does not turn back, no `..` follows another name. -/
theorem ne_dotDot_of_turnsBack (h : path.turnsBack = false) {front : List FileName}
    {last name : FileName} (whole : path.way = front ++ [last]) (mem : name ∈ front)
    (other : name ≠ dotDot) : last ≠ dotDot := by
  rintro rfl
  have remains : (front.dropWhile (· = dotDot)).isEmpty = false := by
    cases nothing : (front.dropWhile (· = dotDot)).isEmpty with
    | false => rfl
    | true =>
      have all := List.dropWhile_eq_nil_iff.1 (List.isEmpty_iff.1 nothing)
      exact absurd (of_decide_eq_true (all name mem)) other
  unfold turnsBack at h
  rw [whole, List.dropWhile_append, remains] at h
  simp at h

end

end PolicyPages.Path
