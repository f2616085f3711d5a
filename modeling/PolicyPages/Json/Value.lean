import PolicyPages.Dictionary
import PolicyPages.Decimal.Binary64

/-!
# JSON values

The value a JSON text denotes. A number is either a whole number that fits 64 bits, with or without
a sign, or a binary floating-point number. The members of an object that is read are a dictionary, so
neither their order in a text nor repetitions of a key remain.
-/

namespace PolicyPages.Json

open PolicyPages.Decimal (Binary64)

/-- A whole number that fits 64 bits, with a sign if it is negative and without one otherwise: at
least `-2 ^ 63` and below `2 ^ 64`. -/
structure Integer where
  val : Int
  lower : -9223372036854775808 ≤ val
  upper : val < 18446744073709551616
deriving DecidableEq

/-- A whole number as one of 64 bits, if it fits. -/
def Integer.ofInt? (n : Int) : Option Integer :=
  if h : -9223372036854775808 ≤ n ∧ n < 18446744073709551616 then some ⟨n, h.1, h.2⟩ else none

@[simp] theorem Integer.ofInt?_val (n : Integer) : Integer.ofInt? n.val = some n := by
  have := n.lower
  have := n.upper
  simp only [Integer.ofInt?]
  rw [dif_pos ⟨n.lower, n.upper⟩]

/-- A JSON value. -/
inductive Value where
  | null
  | bool (b : Bool)
  | integer (n : Integer)
  | float (x : Binary64)
  | string (text : String)
  | array (items : List Value)
  | object (members : List (String × Value))

namespace Value

instance : Inhabited Value := ⟨null⟩

/-- Whether this is the null value. -/
def isNull : Value → Bool
  | null => true
  | _ => false

/-- The text of a string. -/
def string? : Value → Option String
  | string text => some text
  | _ => none

/-- The items of an array. -/
def array? : Value → Option (List Value)
  | array items => some items
  | _ => none

/-- The members of an object. -/
def object? : Value → Option (Dictionary Value)
  | object members => some members
  | _ => none

/-- A finite number as a value; there is no other number in JSON. -/
def ofNumber (x : Binary64) : Value :=
  if x.isFinite then float x else null

mutual

/-- Every object's keys ascend, at every depth. -/
def Sorted : Value → Prop
  | array items => ItemsSorted items
  | object members => Dictionary.Sorted members ∧ MembersSorted members
  | _ => True

/-- Every item's objects have ascending keys. -/
def ItemsSorted : List Value → Prop
  | [] => True
  | item :: rest => item.Sorted ∧ ItemsSorted rest

/-- Every member's objects have ascending keys. -/
def MembersSorted : List (String × Value) → Prop
  | [] => True
  | (_, value) :: rest => value.Sorted ∧ MembersSorted rest

end

mutual

/-- Whether two values are the same. -/
def same : Value → Value → Bool
  | null, null => true
  | bool b, bool other => b == other
  | integer n, integer other => n == other
  | float x, float other => x == other
  | string text, string other => text == other
  | array items, array others => itemsSame items others
  | object members, object others => membersSame members others
  | _, _ => false

/-- Whether several items are the same. -/
def itemsSame : List Value → List Value → Bool
  | [], [] => true
  | item :: rest, other :: others => item.same other && itemsSame rest others
  | _, _ => false

/-- Whether several members are the same, in the same order. -/
def membersSame : List (String × Value) → List (String × Value) → Bool
  | [], [] => true
  | (key, value) :: rest, (otherKey, other) :: others =>
    key == otherKey && value.same other && membersSame rest others
  | _, _ => false

end

mutual

theorem same_iff : ∀ {value other : Value}, value.same other = true ↔ value = other
  | null, other | bool _, other | integer _, other | float _, other | string _, other => by
    cases other <;> simp [same]
  | array items, other => by
    cases other <;> simp [same, itemsSame_iff]
  | object members, other => by
    cases other <;> simp [same, membersSame_iff]

theorem itemsSame_iff : ∀ {items others : List Value},
    itemsSame items others = true ↔ items = others
  | [], others => by
    cases others <;> simp [itemsSame]
  | item :: rest, others => by
    cases others <;> simp [itemsSame, same_iff, itemsSame_iff]

theorem membersSame_iff : ∀ {members others : List (String × Value)},
    membersSame members others = true ↔ members = others
  | [], others => by
    cases others <;> simp [membersSame]
  | (key, value) :: rest, others => by
    cases others <;> simp [membersSame, same_iff, membersSame_iff, Prod.ext_iff]

end

instance : DecidableEq Value :=
  fun _ _ => decidable_of_iff _ same_iff

end Value

end PolicyPages.Json
