import PolicyPages.Proofs.Json.Layers

/-!
# Leaves of layered values

What a path of keys leads to in a value that is laid over another one. A leaf on top, which is neither
null nor an object, stays where it is (`at?_laidOver_of_isLeaf`). Where objects on both sides have led and
nothing or null is on top, the value below stays (`at?_laidOver_of_letsThrough`). So a value over itself
is that value, and it does not matter how often one is laid over another (`laidOver_overrides_leaves`).

Values are those whose keys ascend at every depth, as all values that are read do (`sorted_of_ofText?`), and
layers of such values are such values again (`Sorted.laidOver`).

All of it goes by induction over the members of the value on top (`members_induction`), and from one
object to the next by the look-up of a member (`get?_membersLaidOver`).
-/

namespace PolicyPages.Json.Value

/-! ### Objects and their members -/

theorem eq_object_or (value : Value) :
    (∃ members, value = object members) ∨ value.object? = none := by
  cases value with
  | object members => exact .inl ⟨members, rfl⟩
  | _ => exact .inr rfl

/-- What objects get from their members, and all other values have anyway, all values have. -/
@[elab_as_elim]
theorem members_induction {motive : Value → Prop}
    (other : ∀ value, value.object? = none → motive value)
    (object : ∀ members, (∀ key value, Dictionary.get? members key = some value → motive value) →
      motive (object members)) (value : Value) : motive value := by
  cases value with
  | object members =>
    exact object members fun key value found => members_induction other object value
  | _ => exact other _ rfl
termination_by sizeOf value
decreasing_by
  have smaller := List.sizeOf_lt_of_mem (Dictionary.mem_of_get? found)
  rw [Prod.mk.sizeOf_spec] at smaller
  rw [Value.object.sizeOf_spec]
  omega

theorem sorted_object_iff {members : Dictionary Value} : (object members).Sorted ↔
    Dictionary.Sorted members ∧
      ∀ key value, Dictionary.get? members key = some value → value.Sorted := by
  constructor
  · exact fun sorted => ⟨sorted.keys, fun key value found => sorted.member found⟩
  · rintro ⟨keys, each⟩
    unfold Sorted
    refine ⟨keys, membersSorted_iff.2 ?_⟩
    intro pair mem
    exact each pair.1 pair.2 (Dictionary.get?_of_mem keys mem)

/-- Unless both values are objects, the one on top hides the one below. -/
theorem laidOver_of_object?_eq_none {top below : Value}
    (plain : top.object? = none ∨ below.object? = none) : top.laidOver below = top := by
  rw [laidOver]
  rintro members base rfl rfl
  simp [object?] at plain

theorem sorted_membersLaidOver {base : Dictionary Value} (sorted : Dictionary.Sorted base)
    (members : Dictionary Value) : Dictionary.Sorted (membersLaidOver members base) := by
  induction members generalizing base with
  | nil => rwa [membersLaidOver]
  | cons pair rest ih =>
    rw [membersLaidOver_cons]
    split
    · exact ih sorted
    · exact ih (Dictionary.sorted_insert sorted _ _)

/-- An object has nothing under a key that would hide what is below: no member, or null. -/
def LetsThrough (members : Dictionary Value) (key : String) : Prop :=
  Dictionary.get? members key = none ∨ Dictionary.get? members key = some null

section

variable {members : Dictionary Value} {key : String}

theorem letsThrough_or (members : Dictionary Value) (key : String) :
    LetsThrough members key ∨ ∃ value, Dictionary.get? members key = some value ∧ value ≠ null := by
  cases found : Dictionary.get? members key with
  | none => exact .inl (.inl found)
  | some value =>
    by_cases isNull : value = null
    · exact .inl (.inr (by rw [found, isNull]))
    · exact .inr ⟨value, rfl, isNull⟩

theorem get?_membersLaidOver_of_letsThrough (sorted : Dictionary.Sorted members)
    (through : LetsThrough members key) (base : Dictionary Value) :
    Dictionary.get? (membersLaidOver members base) key = Dictionary.get? base key := by
  rw [get?_membersLaidOver sorted]
  rcases through with missing | isNull
  · rw [missing]
  · rw [isNull]

theorem get?_membersLaidOver_of_ne_null (sorted : Dictionary.Sorted members) {value : Value}
    (found : Dictionary.get? members key = some value) (shown : value ≠ null)
    (base : Dictionary Value) : Dictionary.get? (membersLaidOver members base) key =
      some (value.overMember (Dictionary.get? base key)) := by
  rw [get?_membersLaidOver sorted, found]
  cases value with
  | null => contradiction
  | _ => rfl

end

/-! ### Laying over twice -/

/-- Objects stay sorted at every depth. -/
theorem Sorted.laidOver {top below : Value} (sorted : top.Sorted) (sorted' : below.Sorted) :
    (top.laidOver below).Sorted := by
  induction top using members_induction generalizing below with
  | other top plain => rwa [laidOver_of_object?_eq_none (.inl plain)]
  | object members ih =>
    rcases eq_object_or below with ⟨base, rfl⟩ | plain
    · rw [laidOver_object]
      refine sorted_object_iff.2 ⟨sorted_membersLaidOver sorted'.keys members, ?_⟩
      intro key value found
      rcases letsThrough_or members key with through | ⟨upper, onTop, shown⟩
      · rw [get?_membersLaidOver_of_letsThrough sorted.keys through] at found
        exact sorted'.member found
      · rw [get?_membersLaidOver_of_ne_null sorted.keys onTop shown] at found
        obtain rfl := Option.some.inj found
        cases lies : Dictionary.get? base key with
        | none => exact sorted.member onTop
        | some lower => exact ih key upper onTop (sorted.member onTop) (sorted'.member lies)
    · rwa [laidOver_of_object?_eq_none (.inr plain)]

/-- A value over itself is that value, because no null in it hides anything. -/
theorem laidOver_self {value : Value} (sorted : value.Sorted) : value.laidOver value = value := by
  induction value using members_induction with
  | other value plain => exact laidOver_of_object?_eq_none (.inl plain)
  | object members ih =>
    rw [laidOver_object]
    apply congrArg object
    apply Dictionary.eq_of_get?_eq (sorted_membersLaidOver sorted.keys members) sorted.keys
    intro key
    rcases letsThrough_or members key with through | ⟨value, found, shown⟩
    · exact get?_membersLaidOver_of_letsThrough sorted.keys through _
    · rw [get?_membersLaidOver_of_ne_null sorted.keys found shown, found]
      exact congrArg some (ih key value found (sorted.member found))

/-- To lay a value over another one once more changes nothing. -/
theorem laidOver_laidOver {top below : Value} (sorted : top.Sorted) (sorted' : below.Sorted) :
    top.laidOver (top.laidOver below) = top.laidOver below := by
  induction top using members_induction generalizing below with
  | other top plain =>
    rw [laidOver_of_object?_eq_none (.inl plain), laidOver_of_object?_eq_none (.inl plain)]
  | object members ih =>
    rcases eq_object_or below with ⟨base, rfl⟩ | plain
    · have merged := sorted_membersLaidOver sorted'.keys members
      rw [laidOver_object, laidOver_object]
      apply congrArg object
      apply Dictionary.eq_of_get?_eq (sorted_membersLaidOver merged members) merged
      intro key
      rcases letsThrough_or members key with through | ⟨upper, onTop, shown⟩
      · exact get?_membersLaidOver_of_letsThrough sorted.keys through _
      · rw [get?_membersLaidOver_of_ne_null sorted.keys onTop shown,
          get?_membersLaidOver_of_ne_null sorted.keys onTop shown]
        apply congrArg some
        -- The second time the member lies over itself, or over what it was laid over the first time.
        cases lies : Dictionary.get? base key with
        | none => exact laidOver_self (sorted.member onTop)
        | some lower => exact ih key upper onTop (sorted.member onTop) (sorted'.member lies)
    · rw [laidOver_of_object?_eq_none (.inr plain), laidOver_self sorted]

/-! ### Paths of keys -/

/-- The value that a path of keys leads to, through objects only. -/
def at? : Value → (path : List String) → Option Value
  | value, [] => some value
  | object members, key :: rest => (Dictionary.get? members key).bind fun value => value.at? rest
  | _, _ :: _ => none

/-- Whether a value is neither null nor an object. -/
def isLeaf : Value → Bool
  | null | object _ => false
  | _ => true

section

variable {top below value leaf : Value} {members : Dictionary Value} {key : String}
  {path front rest : List String}

theorem at?_cons_eq_some_iff : value.at? (key :: rest) = some leaf ↔
    ∃ members next, value = object members ∧ Dictionary.get? members key = some next ∧
      next.at? rest = some leaf := by
  cases value with
  | object members => simp [at?, Option.bind_eq_some_iff]
  | _ => simp [at?]

theorem object?_of_isLeaf (h : leaf.isLeaf = true) : leaf.object? = none := by
  cases leaf with
  | object members => contradiction
  | _ => rfl

/-- Nothing but null stands in null. -/
theorem ne_null_of_at? (found : value.at? path = some leaf) (h : leaf ≠ null) : value ≠ null := by
  rintro rfl
  cases path with
  | nil => exact h (Option.some.inj found).symm
  | cons key rest => contradiction

theorem ne_null_of_isLeaf (h : leaf.isLeaf = true) : leaf ≠ null := by
  rintro rfl
  contradiction

/-- A leaf on top stays where it is. -/
theorem at?_laidOver_of_isLeaf (sorted : top.Sorted) (found : top.at? path = some leaf)
    (h : leaf.isLeaf = true) : (top.laidOver below).at? path = some leaf := by
  induction path generalizing top below with
  | nil =>
    obtain rfl := Option.some.inj found
    rw [laidOver_of_object?_eq_none (.inl (object?_of_isLeaf h))]
    exact found
  | cons key rest ih =>
    rcases eq_object_or below with ⟨base, rfl⟩ | plain
    · obtain ⟨members, next, rfl, onTop, later⟩ := at?_cons_eq_some_iff.1 found
      have shown : next ≠ null := ne_null_of_at? later (ne_null_of_isLeaf h)
      rw [laidOver_object]
      refine at?_cons_eq_some_iff.2 ⟨_, _, rfl,
        get?_membersLaidOver_of_ne_null sorted.keys onTop shown base, ?_⟩
      cases Dictionary.get? base key with
      | none => exact later
      | some lower => exact ih (sorted.member onTop) later
    · rw [laidOver_of_object?_eq_none (.inr plain)]
      exact found

/-- Where objects have led and nothing hides it, the value below stays, and all that is in it. -/
theorem at?_laidOver_of_letsThrough (sorted : top.Sorted)
    (reached : top.at? front = some (object members)) (through : LetsThrough members key)
    (found : below.at? (front ++ key :: rest) = some value) :
    (top.laidOver below).at? (front ++ key :: rest) = some value := by
  induction front generalizing top below with
  | nil =>
    obtain rfl := Option.some.inj reached
    obtain ⟨base, next, rfl, lies, later⟩ := at?_cons_eq_some_iff.1 found
    rw [laidOver_object]
    have same := get?_membersLaidOver_of_letsThrough sorted.keys through base
    exact at?_cons_eq_some_iff.2 ⟨_, next, rfl, same.trans lies, later⟩
  | cons first front ih =>
    obtain ⟨upperMembers, upper, rfl, onTop, reachedLater⟩ := at?_cons_eq_some_iff.1 reached
    obtain ⟨base, lower, rfl, lies, later⟩ := at?_cons_eq_some_iff.1 found
    have shown : upper ≠ null := ne_null_of_at? reachedLater (by simp)
    have merged := get?_membersLaidOver_of_ne_null sorted.keys onTop shown base
    rw [lies] at merged
    rw [laidOver_object]
    exact at?_cons_eq_some_iff.2
      ⟨_, _, rfl, merged, ih (sorted.member onTop) reachedLater later⟩

end

/-- A value laid over another one overrides it leaf by leaf. The second time nothing changes, and a value
over itself is that value; a leaf on top is found where it was, and what lies below is found where both
values have objects up to a key and nothing or null is under that key on top. -/
theorem laidOver_overrides_leaves {top below : Value} (sorted : top.Sorted) (sorted' : below.Sorted) :
    (top.laidOver below).Sorted ∧
      top.laidOver (top.laidOver below) = top.laidOver below ∧
      below.laidOver below = below ∧
      (∀ path leaf, top.at? path = some leaf → leaf.isLeaf = true →
        (top.laidOver below).at? path = some leaf) ∧
      ∀ front key rest members value, top.at? front = some (object members) →
        LetsThrough members key → below.at? (front ++ key :: rest) = some value →
        (top.laidOver below).at? (front ++ key :: rest) = some value := by
  refine ⟨sorted.laidOver sorted', laidOver_laidOver sorted sorted', laidOver_self sorted', ?_, ?_⟩
  · intro path leaf found isLeaf
    exact at?_laidOver_of_isLeaf sorted found isLeaf
  · intro front key rest members value reached through found
    exact at?_laidOver_of_letsThrough sorted reached through found

/-- On top a leaf, a null and a new member, beside an object where there was null. -/
def sampleTop : Value :=
  object [("a", object [("x", string "top"), ("y", null), ("z", array [null])]),
    ("d", object [("e", null)])]

def sampleBelow : Value :=
  object [("a", object [("x", object [("deep", bool true)]), ("y", string "below")]),
    ("c", string "below"), ("d", null)]

/-- The object under `x` gives way to a leaf, and `y` stays under its null. -/
theorem laidOver_overrides_leaves_sample :
    let merged := sampleTop.laidOver sampleBelow
    sampleTop.Sorted ∧ sampleBelow.Sorted ∧
      merged = object [("a", object [("x", string "top"), ("y", string "below"), ("z", array [null])]),
        ("c", string "below"), ("d", object [("e", null)])] ∧
      merged.Sorted ∧ sampleTop.laidOver merged = merged ∧
      sampleBelow.laidOver sampleBelow = sampleBelow ∧
      merged.at? ["a", "x"] = some (string "top") ∧ merged.at? ["a", "y"] = some (string "below") := by
  intro merged
  have sorted : sampleTop.Sorted := by
    simp only [sampleTop, Sorted, MembersSorted, ItemsSorted, Dictionary.Sorted]
    decide +kernel
  have sorted' : sampleBelow.Sorted := by
    simp only [sampleBelow, Sorted, MembersSorted, Dictionary.Sorted]
    decide +kernel
  obtain ⟨closed, again, self, leaves, below⟩ := laidOver_overrides_leaves sorted sorted'
  refine ⟨sorted, sorted', by rfl, closed, again, self, leaves ["a", "x"] _ rfl rfl, ?_⟩
  exact below ["a"] "y" [] _ _ rfl (.inr rfl) rfl

end PolicyPages.Json.Value
