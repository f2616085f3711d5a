import PolicyPages.Json.Reading
import PolicyPages.Proofs.Json.Layers
import PolicyPages.Proofs.Json.Words

/-!
# Written values are read back

A written value is read as the tree that keeps its order (`ofText?_written`), on one line or on
several, and a value whose keys ascend and that holds no floating-point number is the value of its tree
(`value?_tree`). So writing such a value and reading it again loses nothing, as long as it does not nest
deeper than a text that is read may.
-/

namespace PolicyPages.Json

namespace Value

/-! ### Depth, and numbers -/

mutual

/-- How deeply arrays and objects nest. -/
def depth : Value → Nat
  | array items => itemsDepth items + 1
  | object members => membersDepth members + 1
  | _ => 0

/-- The greatest depth of several items. -/
def itemsDepth : List Value → Nat
  | [] => 0
  | item :: rest => max item.depth (itemsDepth rest)

/-- The greatest depth of several members. -/
def membersDepth : List (String × Value) → Nat
  | [] => 0
  | (_, value) :: rest => max value.depth (membersDepth rest)

end

mutual

/-- No number is a floating-point number, at every depth. -/
def FloatFree : Value → Prop
  | float _ => False
  | array items => ItemsFloatFree items
  | object members => MembersFloatFree members
  | _ => True

/-- No number in several items is a floating-point number. -/
def ItemsFloatFree : List Value → Prop
  | [] => True
  | item :: rest => item.FloatFree ∧ ItemsFloatFree rest

/-- No number in several members is a floating-point number. -/
def MembersFloatFree : List (String × Value) → Prop
  | [] => True
  | (_, value) :: rest => value.FloatFree ∧ MembersFloatFree rest

end

@[simp] theorem floatFree_null : null.FloatFree := by
  simp [FloatFree]

@[simp] theorem floatFree_bool (b : Bool) : (bool b).FloatFree := by
  simp [FloatFree]

@[simp] theorem floatFree_integer (n : Integer) : (integer n).FloatFree := by
  simp [FloatFree]

@[simp] theorem floatFree_string (text : String) : (string text).FloatFree := by
  simp [FloatFree]

@[simp] theorem floatFree_array_iff {items : List Value} :
    (array items).FloatFree ↔ ∀ item ∈ items, item.FloatFree := by
  rw [FloatFree]
  induction items with
  | nil => simp [ItemsFloatFree]
  | cons item rest ih => simp [ItemsFloatFree, ih]

@[simp] theorem floatFree_object_iff {members : List (String × Value)} :
    (object members).FloatFree ↔ ∀ member ∈ members, member.2.FloatFree := by
  rw [FloatFree]
  induction members with
  | nil => simp [MembersFloatFree]
  | cons member rest ih => simp [MembersFloatFree, ih]

/-! ### The tree of a value -/

mutual

/-- The tree of the text that a value is written as. A floating-point number, whose digits are not
kept, has none of its own. -/
def tree : Value → Written
  | null => .null
  | bool b => .bool b
  | integer n => .number (.ofInteger n)
  | float _ => .null
  | string text => .string (some text)
  | array items => .array (itemTrees items)
  | object members => .object (memberTrees members)

/-- The trees of several items. -/
def itemTrees : List Value → List Written
  | [] => []
  | item :: rest => item.tree :: itemTrees rest

/-- The trees of several members. -/
def memberTrees : List (String × Value) → List (Option String × Written)
  | [] => []
  | (key, value) :: rest => (some key, value.tree) :: memberTrees rest

end

end Value

/-! ### Reading a text word by word -/

namespace Written.State

/-- Reads the words of a text. -/
def read (state : State) (text : List Char) : Option State := do
  (← tokens text).foldlM step state

variable {state : State} {text rest : List Char} {word : Token}

@[simp] theorem read_nil (state : State) : state.read [] = some state := by
  simp [read, tokens]

theorem read_cons_of_isSpace {c : Char} (space : isSpace c = true) (rest : List Char) :
    state.read (c :: rest) = state.read rest := by
  rw [read, tokens_cons_of_isSpace space, read]

/-- The first word is read, and then what follows it. -/
theorem read_of_step {after : State} (first : token? text = some (word, rest))
    (next : state.step word = some after) : state.read text = after.read rest := by
  rw [read, read, tokens_of_token? first]
  cases tokens rest <;> simp [next]

theorem read_append_of_isSpace {gap : List Char} (spaces : ∀ c ∈ gap, isSpace c = true)
    (rest : List Char) : state.read (gap ++ rest) = state.read rest := by
  induction gap with
  | nil => rfl
  | cons c gap ih =>
    obtain ⟨first, later⟩ := List.forall_mem_cons.1 spaces
    rw [List.cons_append, read_cons_of_isSpace first, ih later]

theorem read_gap (spread : Value.Spread) (rest : List Char) :
    state.read (spread.gap ++ rest) = state.read rest := by
  apply read_append_of_isSpace
  cases spread with
  | line => nofun
  | lines level => simp [Value.Spread.gap, isSpace]

/-- Where a value may stand, a word that is a value is read as it. -/
theorem step_of_scalar? {frames : List Frame} {orClose : Bool} {done : Written}
    (scalar : scalar? word = some done) :
    step ⟨frames, .value orClose⟩ word = some ⟨frames, .after done⟩ := by
  cases word <;> simp_all [step, scalar?]

/-- Such a word at the front of a text is read. -/
theorem read_of_scalar? {frames : List Frame} {orClose : Bool} {done : Written}
    (h : token? text = some (word, rest)) (scalar : scalar? word = some done) :
    State.read ⟨frames, .value orClose⟩ text = State.read ⟨frames, .after done⟩ rest :=
  read_of_step h (step_of_scalar? scalar)

/-- A key and its colon are read. -/
theorem read_key (spread : Value.Spread) (frames : List Frame)
    (members : List (Option String × Written)) (orClose : Bool) (key : String) (rest : List Char) :
    State.read ⟨frames, .key members orClose⟩ (quoted key ++ (spread.colon ++ rest)) =
      State.read ⟨.object members (some key) :: frames, .value false⟩ rest := by
  have word : State.step ⟨frames, .key members orClose⟩ (.string (some key)) =
      some ⟨frames, .colon members (some key)⟩ := by
    cases orClose <;> rfl
  have colon (rest : List Char) : State.read ⟨frames, .colon members (some key)⟩ (':' :: rest) =
      State.read ⟨.object members (some key) :: frames, .value false⟩ rest :=
    read_of_step rfl rfl
  rw [read_of_step (token?_quoted key _) word]
  cases spread with
  | line => exact colon rest
  | lines level => exact (colon (' ' :: rest)).trans (read_cons_of_isSpace rfl rest)

end Written.State

namespace Value

open Written (Frame)
open Written.State (read_append_of_isSpace read_gap read_key read_of_scalar? read_of_step)

theorem endsNumeral_of_isSpace {gap : List Char} (spaces : ∀ c ∈ gap, isSpace c = true) :
    EndsNumeral gap := by
  intro c first
  have space := spaces c (List.mem_of_mem_head? first)
  simp only [isSpace, Bool.or_eq_true, beq_iff_eq] at space
  rcases space with ((rfl | rfl) | rfl) | rfl <;> exact ⟨rfl, by decide⟩

theorem endsNumeral_cons {c : Char} (noDigit : c.isDigit = false) (other : c ∉ ['.', 'e', 'E'])
    (rest : List Char) : EndsNumeral (c :: rest) := by
  intro d first
  obtain rfl := Option.some.inj first
  exact ⟨noDigit, other⟩

theorem endsNumeral_gap {rest : List Char} (ends : EndsNumeral rest) (spread : Spread) :
    EndsNumeral (spread.gap ++ rest) := by
  cases spread with
  | line => exact ends
  | lines level => exact endsNumeral_cons rfl (by decide) _

/-- No numeral goes on in what follows an item up to the end of its array. -/
theorem endsNumeral_itemsWritten (items : List Value) (inner outer : Spread) (rest : List Char) :
    EndsNumeral (itemsWritten inner items ++ (outer.gap ++ ']' :: rest)) := by
  cases items with
  | nil => exact endsNumeral_gap (endsNumeral_cons rfl (by decide) rest) outer
  | cons item items => exact endsNumeral_cons rfl (by decide) _

/-- No numeral goes on in what follows a member up to the end of its object. -/
theorem endsNumeral_membersWritten (members : List (String × Value)) (inner outer : Spread)
    (rest : List Char) : EndsNumeral (membersWritten inner members ++ (outer.gap ++ '}' :: rest)) := by
  cases members with
  | nil => exact endsNumeral_gap (endsNumeral_cons rfl (by decide) rest) outer
  | cons member members => exact endsNumeral_cons rfl (by decide) _

-- By induction on the value. The arrays and objects that are open around it stay as they are, and so
-- does the text behind it, where only a numeral could go on.
mutual

/-- Where a value may stand, a written value is read as its tree. -/
theorem read_written : ∀ (value : Value) (spread : Spread) (frames : List Frame) (orClose : Bool)
    (rest : List Char), value.FloatFree → EndsNumeral rest →
    Written.State.read ⟨frames, .value orClose⟩ (value.written spread ++ rest) =
      Written.State.read ⟨frames, .after value.tree⟩ rest
  | null, spread, frames, orClose, rest, _, _ => by
    rw [written, tree]
    exact read_of_scalar? rfl rfl
  | bool b, spread, frames, orClose, rest, _, _ => by
    rw [written, tree]
    cases b <;> exact read_of_scalar? rfl rfl
  | integer n, spread, frames, orClose, rest, _, ends => by
    rw [written, tree]
    exact read_of_scalar? (token?_integer n ends) rfl
  | float x, _, _, _, _, floatFree, _ => by
    rw [FloatFree] at floatFree
    contradiction
  | string text, spread, frames, orClose, rest, _, _ => by
    rw [written, tree]
    exact read_of_scalar? (token?_quoted text rest) rfl
  | array [], spread, frames, orClose, rest, _, _ => by
    rw [written, tree, itemTrees]
    exact (read_of_step rfl rfl).trans (read_of_step rfl rfl)
  | array (item :: items), spread, frames, orClose, rest, floatFree, _ => by
    obtain ⟨first, others⟩ : item.FloatFree ∧ ItemsFloatFree items := by
      rwa [FloatFree, ItemsFloatFree] at floatFree
    have spelled : (array (item :: items)).written spread ++ rest =
        '[' :: (spread.deeper.gap ++ (item.written spread.deeper ++
          (itemsWritten spread.deeper items ++ (spread.gap ++ ']' :: rest)))) := by
      simp [written]
    have ends := endsNumeral_itemsWritten items spread.deeper spread rest
    rw [spelled, read_of_step rfl rfl, read_gap, read_written item _ _ _ _ first ends,
      read_itemsWritten items _ _ _ _ _ _ others, tree, itemTrees]
    rfl
  | object [], spread, frames, orClose, rest, _, _ => by
    rw [written, tree, memberTrees]
    exact (read_of_step rfl rfl).trans (read_of_step rfl rfl)
  | object ((key, value) :: members), spread, frames, orClose, rest, floatFree, _ => by
    obtain ⟨first, others⟩ : value.FloatFree ∧ MembersFloatFree members := by
      rwa [FloatFree, MembersFloatFree] at floatFree
    have spelled : (object ((key, value) :: members)).written spread ++ rest =
        '{' :: (spread.deeper.gap ++ (quoted key ++ (spread.colon ++ (value.written spread.deeper ++
          (membersWritten spread.deeper members ++ (spread.gap ++ '}' :: rest)))))) := by
      simp [written]
    have ends := endsNumeral_membersWritten members spread.deeper spread rest
    rw [spelled, read_of_step rfl rfl, read_gap, read_key, read_written value _ _ _ _ first ends,
      read_membersWritten members _ _ _ _ _ _ _ others, tree, memberTrees]
    rfl

/-- In an open array, the items after a complete one are read, and the array is closed. -/
theorem read_itemsWritten : ∀ (items : List Value) (inner outer : Spread) (frames : List Frame)
    (before : List Written) (complete : Written) (rest : List Char), ItemsFloatFree items →
    Written.State.read ⟨.array before :: frames, .after complete⟩
        (itemsWritten inner items ++ (outer.gap ++ ']' :: rest)) =
      Written.State.read
        ⟨frames, .after (.array ((complete :: before).reverse ++ itemTrees items))⟩ rest
  | [], inner, outer, frames, before, complete, rest, _ => by
    rw [itemsWritten, List.nil_append, read_gap, itemTrees, List.append_nil]
    exact read_of_step rfl rfl
  | item :: items, inner, outer, frames, before, complete, rest, floatFree => by
    obtain ⟨first, others⟩ : item.FloatFree ∧ ItemsFloatFree items := by
      rwa [ItemsFloatFree] at floatFree
    have spelled : itemsWritten inner (item :: items) ++ (outer.gap ++ ']' :: rest) =
        ',' :: (inner.gap ++ (item.written inner ++
          (itemsWritten inner items ++ (outer.gap ++ ']' :: rest)))) := by
      simp [itemsWritten]
    have ends := endsNumeral_itemsWritten items inner outer rest
    rw [spelled, read_of_step rfl rfl, read_gap, read_written item _ _ _ _ first ends,
      read_itemsWritten items _ _ _ _ _ _ others, itemTrees]
    simp

/-- In an open object, the members after a complete one are read, and the object is closed. -/
theorem read_membersWritten : ∀ (members : List (String × Value)) (inner outer : Spread)
    (frames : List Frame) (before : List (Option String × Written)) (key : Option String)
    (complete : Written) (rest : List Char), MembersFloatFree members →
    Written.State.read ⟨.object before key :: frames, .after complete⟩
        (membersWritten inner members ++ (outer.gap ++ '}' :: rest)) =
      Written.State.read
        ⟨frames, .after (.object (((key, complete) :: before).reverse ++ memberTrees members))⟩ rest
  | [], inner, outer, frames, before, key, complete, rest, _ => by
    rw [membersWritten, List.nil_append, read_gap, memberTrees, List.append_nil]
    exact read_of_step rfl rfl
  | (next, value) :: members, inner, outer, frames, before, key, complete, rest, floatFree => by
    obtain ⟨first, others⟩ : value.FloatFree ∧ MembersFloatFree members := by
      rwa [MembersFloatFree] at floatFree
    have spelled : membersWritten inner ((next, value) :: members) ++ (outer.gap ++ '}' :: rest) =
        ',' :: (inner.gap ++ (quoted next ++ (inner.colon ++ (value.written inner ++
          (membersWritten inner members ++ (outer.gap ++ '}' :: rest)))))) := by
      simp [membersWritten]
    have ends := endsNumeral_membersWritten members inner outer rest
    rw [spelled, read_of_step rfl rfl, read_gap, read_key, read_written value _ _ _ _ first ends,
      read_membersWritten members _ _ _ _ _ _ _ others, memberTrees]
    simp

end

/-- A written value, with nothing but spaces behind it, is read as its tree. -/
theorem ofText?_written {value : Value} (floatFree : value.FloatFree) (spread : Spread)
    (gap : List Char) (spaces : ∀ c ∈ gap, isSpace c = true) :
    Written.ofText? (String.ofList (value.written spread ++ gap)) = some value.tree := by
  have reached : Written.State.start.read (value.written spread ++ gap) =
      some ⟨[], .after value.tree⟩ := by
    rw [Written.State.start,
      read_written value spread [] false gap floatFree (endsNumeral_of_isSpace spaces)]
    simpa using read_append_of_isSpace spaces []
  obtain ⟨words, cut, folded⟩ := Option.bind_eq_some_iff.1 reached
  rw [Written.ofText?, String.toList_ofList, cut]
  simp only [Option.bind_eq_bind, Option.bind_some, Written.ofTokens?, folded]
  rfl

/-! ### The value of a tree -/

mutual

theorem value?_tree : ∀ value : Value, value.Sorted → value.FloatFree →
    value.tree.value? = some value
  | null, _, _ => by rw [tree, Written.value?]
  | bool b, _, _ => by rw [tree, Written.value?]
  | integer n, _, _ => by
    rw [tree, Written.value?, Numeral.value?, Numeral.integer?_ofInteger]
  | float x, _, floatFree => by
    rw [FloatFree] at floatFree
    contradiction
  | string text, _, _ => by
    rw [tree, Written.value?]
    rfl
  | array items, sorted, floatFree => by
    rw [Sorted] at sorted
    rw [FloatFree] at floatFree
    rw [tree, Written.value?, itemValues?_itemTrees items sorted floatFree]
    rfl
  | object members, sorted, floatFree => by
    rw [Sorted] at sorted
    rw [FloatFree] at floatFree
    rw [tree, Written.value?, memberValues?_memberTrees members sorted.2 floatFree, Option.map_some,
      Dictionary.ofList_of_sorted sorted.1]

theorem itemValues?_itemTrees : ∀ items : List Value, ItemsSorted items → ItemsFloatFree items →
    Written.itemValues? (itemTrees items) = some items
  | [], _, _ => by rw [itemTrees, Written.itemValues?]
  | item :: items, sorted, floatFree => by
    rw [ItemsSorted] at sorted
    rw [ItemsFloatFree] at floatFree
    rw [itemTrees, Written.itemValues?, value?_tree item sorted.1 floatFree.1,
      itemValues?_itemTrees items sorted.2 floatFree.2]
    rfl

theorem memberValues?_memberTrees : ∀ members : List (String × Value), MembersSorted members →
    MembersFloatFree members → Written.memberValues? (memberTrees members) = some members
  | [], _, _ => by rw [memberTrees, Written.memberValues?]
  | (key, value) :: members, sorted, floatFree => by
    rw [MembersSorted] at sorted
    rw [MembersFloatFree] at floatFree
    rw [memberTrees, Written.memberValues?, value?_tree value sorted.1 floatFree.1,
      memberValues?_memberTrees members sorted.2 floatFree.2]
    rfl

end

mutual

theorem depth_tree : ∀ value : Value, value.tree.depth = value.depth
  | null | bool _ | integer _ | float _ | string _ => by simp [tree, Written.depth, depth]
  | array items => by rw [tree, Written.depth, depth, itemsDepth_itemTrees items]
  | object members => by rw [tree, Written.depth, depth, membersDepth_memberTrees members]

theorem itemsDepth_itemTrees : ∀ items : List Value,
    Written.itemsDepth (itemTrees items) = itemsDepth items
  | [] => by rw [itemTrees, Written.itemsDepth, itemsDepth]
  | item :: items => by
    rw [itemTrees, Written.itemsDepth, itemsDepth, depth_tree item, itemsDepth_itemTrees items]

theorem membersDepth_memberTrees : ∀ members : List (String × Value),
    Written.membersDepth (memberTrees members) = membersDepth members
  | [] => by rw [memberTrees, Written.membersDepth, membersDepth]
  | (key, value) :: members => by
    rw [memberTrees, Written.membersDepth, membersDepth, depth_tree value,
      membersDepth_memberTrees members]

end

end Value

end PolicyPages.Json
