import PolicyPages.Json.Merge
import PolicyPages.Json.Reading

/-!
# Members of layered values

What an object laid over another one holds under a key (`get?_membersLaidOver`): the member on top,
laid over the one below if there is one, or the one below where nothing or null lies on top. It needs
that no key stands twice on top; in values that are read from texts none does (`sorted_of_ofText?`).
-/

namespace PolicyPages.Json

/-! ### Values that are read -/

namespace Value

theorem itemsSorted_iff {items : List Value} :
    ItemsSorted items ↔ ∀ item ∈ items, item.Sorted := by
  induction items with
  | nil => simp [ItemsSorted]
  | cons item rest ih => simp [ItemsSorted, ih]

theorem membersSorted_iff {members : List (String × Value)} :
    MembersSorted members ↔ ∀ pair ∈ members, pair.2.Sorted := by
  induction members with
  | nil => simp [MembersSorted]
  | cons pair rest ih => simp [MembersSorted, ih]

theorem sorted_object_ofList {pairs : List (String × Value)}
    (each : ∀ pair ∈ pairs, pair.2.Sorted) : (object (Dictionary.ofList pairs)).Sorted := by
  unfold Sorted
  exact ⟨Dictionary.sorted_ofList pairs,
    membersSorted_iff.2 fun pair mem => each pair (Dictionary.mem_of_mem_ofList mem)⟩

/-- A member of an object with ascending keys is such a value itself. -/
theorem Sorted.member {members : Dictionary Value} {key : String} {value : Value}
    (sorted : (object members).Sorted) (found : Dictionary.get? members key = some value) :
    value.Sorted := by
  unfold Sorted at sorted
  exact membersSorted_iff.1 sorted.2 _ (Dictionary.mem_of_get? found)

theorem Sorted.keys {members : Dictionary Value} (sorted : (object members).Sorted) :
    Dictionary.Sorted members := by
  unfold Sorted at sorted
  exact sorted.1

end Value

namespace Written

theorem sorted_of_numeral {numeral : Numeral} {value : Value} (h : numeral.value? = some value) :
    value.Sorted := by
  unfold Numeral.value? at h
  split at h
  · rw [← Option.some.inj h]
    simp [Value.Sorted]
  · obtain ⟨a, -, rfl⟩ := Option.map_eq_some_iff.1 h
    simp [Value.Sorted]

mutual

/-- The value of a tree has ascending keys at every depth. -/
theorem sorted_of_value? : ∀ (tree : Written) (value : Value), tree.value? = some value →
    value.Sorted
  | .null, value, h => by
    rw [value?] at h
    rw [← Option.some.inj h]
    simp [Value.Sorted]
  | .bool b, value, h => by
    rw [value?] at h
    rw [← Option.some.inj h]
    simp [Value.Sorted]
  | .number numeral, value, h => by
    rw [value?] at h
    exact sorted_of_numeral h
  | .string content, value, h => by
    rw [value?] at h
    obtain ⟨text, -, rfl⟩ := Option.map_eq_some_iff.1 h
    simp [Value.Sorted]
  | .array items, value, h => by
    rw [value?] at h
    obtain ⟨values, read, rfl⟩ := Option.map_eq_some_iff.1 h
    unfold Value.Sorted
    exact Value.itemsSorted_iff.2 (sorted_of_itemValues? items values read)
  | .object members, value, h => by
    rw [value?] at h
    obtain ⟨pairs, read, rfl⟩ := Option.map_eq_some_iff.1 h
    exact Value.sorted_object_ofList (sorted_of_memberValues? members pairs read)

theorem sorted_of_itemValues? : ∀ (items : List Written) (values : List Value),
    itemValues? items = some values → ∀ value ∈ values, value.Sorted
  | [], values, h => by
    rw [itemValues?] at h
    rw [← Option.some.inj h]
    simp
  | item :: rest, values, h => by
    rw [itemValues?] at h
    obtain ⟨value, first, later⟩ := Option.bind_eq_some_iff.1 h
    obtain ⟨others, read, whole⟩ := Option.bind_eq_some_iff.1 later
    rw [← Option.some.inj whole]
    exact List.forall_mem_cons.2 ⟨sorted_of_value? item value first,
      sorted_of_itemValues? rest others read⟩

theorem sorted_of_memberValues? : ∀ (members : List (Option String × Written))
    (pairs : List (String × Value)), memberValues? members = some pairs →
    ∀ pair ∈ pairs, pair.2.Sorted
  | [], pairs, h => by
    rw [memberValues?] at h
    rw [← Option.some.inj h]
    simp
  | (key, item) :: rest, pairs, h => by
    rw [memberValues?] at h
    obtain ⟨value, first, later⟩ := Option.bind_eq_some_iff.1 h
    obtain ⟨name, -, later⟩ := Option.bind_eq_some_iff.1 later
    obtain ⟨others, read, whole⟩ := Option.bind_eq_some_iff.1 later
    rw [← Option.some.inj whole]
    exact List.forall_mem_cons.2 ⟨sorted_of_value? item value first,
      sorted_of_memberValues? rest others read⟩

end

end Written

namespace Value

theorem sorted_of_ofText? {text : String} {value : Value} (h : ofText? text = some value) :
    value.Sorted := by
  unfold ofText? at h
  obtain ⟨tree, -, read⟩ := Option.bind_eq_some_iff.1 h
  split at read
  · exact Written.sorted_of_value? tree value read
  · contradiction

/-! ### One member -/

/-- A member laid over what is below, if there is anything. -/
def overMember (value : Value) (below : Option Value) : Value :=
  match below with
  | some lower => value.laidOver lower
  | none => value

theorem laidOver_object (members base : Dictionary Value) :
    (object members).laidOver (object base) = object (membersLaidOver members base) := by
  rw [laidOver]

theorem string_laidOver (text : String) (below : Value) :
    (string text).laidOver below = string text := by
  rw [laidOver]
  nofun

theorem membersLaidOver_cons (key : String) (value : Value) (rest base : Dictionary Value) :
    membersLaidOver ((key, value) :: rest) base =
      if value.isNull then membersLaidOver rest base
      else membersLaidOver rest
        (Dictionary.insert base key (value.overMember (Dictionary.get? base key))) := by
  rw [membersLaidOver]
  rfl

/-- Under a key that nothing on top has lies what was below. -/
theorem get?_membersLaidOver_of_notMem {members : Dictionary Value} {key : String}
    (free : key ∉ Dictionary.keys members) (base : Dictionary Value) :
    Dictionary.get? (membersLaidOver members base) key = Dictionary.get? base key := by
  induction members generalizing base with
  | nil => rw [membersLaidOver]
  | cons pair rest ih =>
    obtain ⟨other, value⟩ := pair
    obtain ⟨apart, later⟩ : key ≠ other ∧ key ∉ Dictionary.keys rest := by
      simpa [Dictionary.keys] using free
    rw [membersLaidOver_cons]
    split
    · exact ih later base
    · rw [ih later, Dictionary.get?_insert, if_neg (Ne.symm apart)]

/-- Under a key lies what is on top, over what is below; where nothing or null is on top, it is what is
below. -/
theorem get?_membersLaidOver {members : Dictionary Value} (sorted : Dictionary.Sorted members)
    (base : Dictionary Value) (key : String) :
    Dictionary.get? (membersLaidOver members base) key =
      match Dictionary.get? members key with
      | none | some .null => Dictionary.get? base key
      | some value => some (value.overMember (Dictionary.get? base key)) := by
  induction members generalizing base with
  | nil => rw [membersLaidOver, Dictionary.get?]
  | cons pair rest ih =>
    obtain ⟨first, value⟩ := pair
    have later : Dictionary.Sorted rest := (List.pairwise_cons.1 sorted).2
    rw [membersLaidOver_cons]
    by_cases here : first = key
    · subst here
      -- No later member has this key.
      have free : first ∉ Dictionary.keys rest := fun mem =>
        String.lt_irrefl first ((List.pairwise_cons.1 sorted).1 first mem)
      rw [Dictionary.get?, if_pos rfl]
      cases value with
      | null => exact get?_membersLaidOver_of_notMem free base
      | _ =>
        rw [if_neg (by simp [isNull]), get?_membersLaidOver_of_notMem free,
          Dictionary.get?_insert, if_pos rfl]
    · rw [Dictionary.get?, if_neg here]
      split
      · exact ih later base
      · rw [ih later, Dictionary.get?_insert, if_neg here]

end Value

end PolicyPages.Json
