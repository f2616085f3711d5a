/-!
# Dictionaries

Values by text key, as pairs in ascending order of the keys, where texts are ordered by their
bytes. Each key stands once, so a dictionary is its own normal form.

* `Sorted` is the order; `sorted_insert` and `sorted_ofList` say that it is kept, and
  `ofList_of_sorted` that a list in this order is the dictionary that is made of it.
* `get?_insert` is the one equation between writing and reading, `get?_insertAll` the one for many pairs;
  `get?_map` reads values that have been changed in place.
* `eq_of_get?_eq` is that reading tells all there is: dictionaries with the same value under each key
  are the same.
-/

namespace PolicyPages

/-- Values by key, in ascending order of the keys. -/
abbrev Dictionary (α : Type) := List (String × α)

namespace Dictionary

variable {α β : Type}

/-- The value under a key. -/
def get? : Dictionary α → (key : String) → Option α
  | [], _ => none
  | (k, v) :: rest, key => if k = key then some v else get? rest key

/-- Writes a value under a key, in the place of an earlier one. -/
def insert : Dictionary α → (key : String) → (value : α) → Dictionary α
  | [], key, value => [(key, value)]
  | (k, v) :: rest, key, value =>
    if key < k then (key, value) :: (k, v) :: rest
    else if key = k then (key, value) :: rest
    else (k, v) :: insert rest key value

/-- Writes all pairs in turn, so that the last of several values for a key stays. -/
def insertAll (d : Dictionary α) (pairs : List (String × α)) : Dictionary α :=
  pairs.foldl (fun d pair => insert d pair.1 pair.2) d

/-- The dictionary of a list of pairs. -/
def ofList (pairs : List (String × α)) : Dictionary α :=
  insertAll [] pairs

/-- The keys in order. -/
def keys (d : Dictionary α) : List String :=
  d.map Prod.fst

/-- The keys ascend, so none stands twice. -/
def Sorted (d : Dictionary α) : Prop :=
  (keys d).Pairwise (· < ·)

theorem get?_insert (d : Dictionary α) (key other : String) (value : α) :
    get? (insert d key value) other = if key = other then some value else get? d other := by
  induction d with
  | nil => simp [insert, get?]
  | cons pair rest ih =>
    obtain ⟨k, v⟩ := pair
    unfold insert
    split
    · simp [get?]
    · split
      · rename_i h
        subst h
        by_cases hk : key = other <;> simp [get?, hk]
      · rename_i hne
        by_cases hk : k = other
        · subst hk
          simp [get?, hne]
        · simp [get?, hk, ih]

theorem get?_map (f : α → β) (d : Dictionary α) (key : String) :
    get? (d.map fun pair => (pair.1, f pair.2)) key = (get? d key).map f := by
  induction d with
  | nil => rfl
  | cons pair rest ih =>
    by_cases found : pair.1 = key
    · simp [get?, found]
    · simpa [get?, found] using ih

theorem mem_of_get? {d : Dictionary α} {key : String} {value : α} (found : get? d key = some value) :
    (key, value) ∈ d := by
  induction d with
  | nil => contradiction
  | cons pair rest ih =>
    unfold get? at found
    split at found
    · rename_i same
      rw [← same, ← Option.some.inj found]
      exact List.mem_cons_self
    · exact List.mem_cons_of_mem _ (ih found)

theorem get?_eq_none_iff {d : Dictionary α} {key : String} : get? d key = none ↔ key ∉ keys d := by
  induction d with
  | nil => simp [get?, keys]
  | cons pair rest ih =>
    unfold get?
    split
    · rename_i same
      simp [keys, same]
    · rename_i other
      rw [ih, keys, keys, List.map_cons, List.mem_cons, not_or]
      exact ⟨fun free => ⟨Ne.symm other, free⟩, And.right⟩

theorem mem_keys_congr {d e : Dictionary α} (same : ∀ key, get? d key = get? e key) (key : String) :
    key ∈ keys d ↔ key ∈ keys e := by
  rw [← Decidable.not_iff_not, ← get?_eq_none_iff, ← get?_eq_none_iff, same]

theorem mem_keys_insert {d : Dictionary α} {key other : String} {value : α} :
    other ∈ keys (insert d key value) ↔ other = key ∨ other ∈ keys d := by
  induction d with
  | nil => simp [insert, keys]
  | cons pair rest ih =>
    obtain ⟨k, v⟩ := pair
    unfold insert
    split
    · simp [keys]
    · split
      · rename_i h
        subst h
        simp [keys]
      · simp only [keys, List.map_cons, List.mem_cons] at ih ⊢
        rw [ih]
        constructor
        · rintro (h | h | h) <;> simp [h]
        · rintro (h | h | h) <;> simp [h]

/-- What a dictionary holds after a value is written was written, or was there. -/
theorem mem_insert {d : Dictionary α} {key : String} {value : α} {pair : String × α}
    (mem : pair ∈ insert d key value) : pair = (key, value) ∨ pair ∈ d := by
  induction d with
  | nil => exact .inl (List.mem_singleton.1 mem)
  | cons first rest ih =>
    unfold insert at mem
    split at mem
    · exact List.mem_cons.1 mem
    · split at mem
      · exact (List.mem_cons.1 mem).imp_right (List.mem_cons_of_mem _)
      · rcases List.mem_cons.1 mem with rfl | later
        · exact .inr List.mem_cons_self
        · exact (ih later).imp_right (List.mem_cons_of_mem _)

theorem mem_of_mem_ofList {pairs : List (String × α)} {pair : String × α}
    (mem : pair ∈ ofList pairs) : pair ∈ pairs := by
  have inside : ∀ (d : Dictionary α) (pairs : List (String × α)),
      pair ∈ insertAll d pairs → pair ∈ d ∨ pair ∈ pairs := by
    intro d pairs
    induction pairs generalizing d with
    | nil => exact .inl
    | cons next rest ih =>
      intro mem
      rcases ih _ mem with early | late
      · rcases mem_insert early with rfl | before
        · exact .inr List.mem_cons_self
        · exact .inl before
      · exact .inr (List.mem_cons_of_mem _ late)
  exact (inside [] pairs mem).resolve_left List.not_mem_nil

theorem sorted_insert {d : Dictionary α} (sorted : Sorted d) (key : String) (value : α) :
    Sorted (insert d key value) := by
  induction d with
  | nil => simp [Sorted, keys, insert]
  | cons pair rest ih =>
    obtain ⟨k, v⟩ := pair
    have first : ∀ other ∈ keys rest, k < other := by
      simpa [Sorted, keys] using (List.pairwise_cons.1 sorted).1
    have tail : Sorted rest := (List.pairwise_cons.1 sorted).2
    unfold insert
    split
    · rename_i h
      refine List.pairwise_cons.2 ⟨fun other mem => ?_, sorted⟩
      rcases List.mem_cons.1 mem with rfl | mem
      · exact h
      · exact String.lt_trans h (first other mem)
    · split
      · rename_i h
        subst h
        exact List.pairwise_cons.2 ⟨first, tail⟩
      · rename_i notLess notSame
        refine List.pairwise_cons.2 ⟨fun other mem => ?_, ih tail⟩
        rcases mem_keys_insert.1 mem with rfl | mem
        · rcases String.le_total k other with h | h
          · exact Std.lt_of_le_of_ne h (Ne.symm notSame)
          · exact absurd (Std.lt_of_le_of_ne h notSame) notLess
        · exact first other mem

theorem sorted_insertAll {d : Dictionary α} (sorted : Sorted d) (pairs : List (String × α)) :
    Sorted (insertAll d pairs) := by
  induction pairs generalizing d with
  | nil => exact sorted
  | cons pair rest ih => exact ih (sorted_insert sorted pair.1 pair.2)

theorem sorted_ofList (pairs : List (String × α)) : Sorted (ofList pairs) :=
  sorted_insertAll (show Sorted [] by simp [Sorted, keys]) pairs

/-- A key behind all others is written at the end. -/
theorem insert_of_forall_lt {d : Dictionary α} {key : String} (last : ∀ other ∈ keys d, other < key)
    (value : α) : insert d key value = d ++ [(key, value)] := by
  induction d with
  | nil => rfl
  | cons pair rest ih =>
    obtain ⟨k, v⟩ := pair
    have before : k < key := last k List.mem_cons_self
    have apart : key ≠ k := by
      rintro rfl
      exact String.lt_irrefl key before
    rw [insert, if_neg (String.lt_asymm before), if_neg apart,
      ih fun other mem => last other (List.mem_cons_of_mem _ mem), List.cons_append]

theorem insertAll_of_sorted {d pairs : Dictionary α} (sorted : Sorted (d ++ pairs)) :
    insertAll d pairs = d ++ pairs := by
  induction pairs generalizing d with
  | nil => rw [List.append_nil, insertAll, List.foldl_nil]
  | cons pair rest ih =>
    have last : ∀ other ∈ keys d, other < pair.1 := by
      intro other mem
      rw [Sorted, keys, List.map_append, List.pairwise_append] at sorted
      exact sorted.2.2 other mem pair.1 List.mem_cons_self
    rw [insertAll, List.foldl_cons, insert_of_forall_lt last, ← insertAll, ih (by simpa using sorted)]
    simp

theorem ofList_of_sorted {d : Dictionary α} (sorted : Sorted d) : ofList d = d :=
  insertAll_of_sorted sorted

theorem get?_of_mem {d : Dictionary α} (sorted : Sorted d) {key : String} {value : α}
    (mem : (key, value) ∈ d) : get? d key = some value := by
  induction d with
  | nil => contradiction
  | cons pair rest ih =>
    obtain ⟨first, later⟩ := List.pairwise_cons.1 sorted
    rcases List.mem_cons.1 mem with rfl | mem
    · rw [get?, if_pos rfl]
    · have below : pair.1 < key := first key (List.mem_map_of_mem mem)
      have apart : pair.1 ≠ key := fun same => String.lt_irrefl key (same ▸ below)
      rw [get?, if_neg apart, ih later mem]

theorem get?_insertAll {pairs : Dictionary α} (sorted : Sorted pairs) (d : Dictionary α)
    (key : String) : get? (insertAll d pairs) key = (get? pairs key).or (get? d key) := by
  induction pairs generalizing d with
  | nil => rfl
  | cons pair rest ih =>
    obtain ⟨first, later⟩ := List.pairwise_cons.1 sorted
    have written : insertAll d (pair :: rest) = insertAll (insert d pair.1 pair.2) rest := rfl
    rw [written, ih later, get?_insert, get?]
    by_cases here : pair.1 = key
    · have free : get? rest key = none :=
        get?_eq_none_iff.2 fun mem => String.lt_irrefl key (here ▸ first key mem)
      rw [free, if_pos here, if_pos here, Option.none_or, Option.some_or]
    · rw [if_neg here, if_neg here]

/-- In the dictionary of two dictionaries one after the other, the second one is laid over the
first. -/
theorem get?_ofList_append {d e : Dictionary α} (sorted : Sorted d) (sorted' : Sorted e)
    (key : String) : get? (ofList (d ++ e)) key = (get? e key).or (get? d key) := by
  have inTurn : ofList (d ++ e) = insertAll (ofList d) e := List.foldl_append
  rw [inTurn, get?_insertAll sorted', ofList_of_sorted sorted]

/-- A dictionary is determined by what it has under each key. -/
theorem eq_of_get?_eq {d e : Dictionary α} (sorted : Sorted d) (sorted' : Sorted e)
    (same : ∀ key, get? d key = get? e key) : d = e := by
  induction d generalizing e with
  | nil =>
    cases e with
    | nil => rfl
    | cons pair rest =>
      exact absurd ((mem_keys_congr same pair.1).2 List.mem_cons_self) List.not_mem_nil
  | cons pair rest ih =>
    cases e with
    | nil => exact absurd ((mem_keys_congr same pair.1).1 List.mem_cons_self) List.not_mem_nil
    | cons pair' rest' =>
      obtain ⟨key, value⟩ := pair
      obtain ⟨key', value'⟩ := pair'
      obtain ⟨first, later⟩ := List.pairwise_cons.1 sorted
      obtain ⟨first', later'⟩ := List.pairwise_cons.1 sorted'
      -- Each first key stands in the other dictionary too, so neither is before the other one.
      have firstSame : key = key' := by
        rcases List.mem_cons.1 ((mem_keys_congr same key).1 List.mem_cons_self) with here | inRest'
        · exact here
        · rcases List.mem_cons.1 ((mem_keys_congr same key').2 List.mem_cons_self) with here | inRest
          · exact here.symm
          · exact absurd (first' key inRest') (String.lt_asymm (first key' inRest))
      subst firstSame
      have free : get? rest key = none :=
        get?_eq_none_iff.2 fun mem => String.lt_irrefl key (first key mem)
      have free' : get? rest' key = none :=
        get?_eq_none_iff.2 fun mem => String.lt_irrefl key (first' key mem)
      have valueSame : value = value' := by
        simpa [get?] using same key
      have restSame (other : String) : get? rest other = get? rest' other := by
        by_cases here : key = other
        · rw [← here, free, free']
        · simpa [get?, here] using same other
      rw [valueSame, ih later later' restSame]

end Dictionary

end PolicyPages
