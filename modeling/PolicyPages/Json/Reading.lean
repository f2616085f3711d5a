import PolicyPages.Json.Number
import PolicyPages.Json.Written

/-!
# Reading JSON texts

The value of a written text. Of several members with one key the last one stays. A text whose arrays
and objects nest deeper than `maxDepth` is refused.
-/

namespace PolicyPages.Json

namespace Written

mutual

/-- The value of a tree, if its texts are whole and its numbers finite. -/
def value? : Written → Option Value
  | null => some .null
  | bool b => some (.bool b)
  | number numeral => numeral.value?
  | string content => content.map .string
  | array items => (itemValues? items).map .array
  | object members => (memberValues? members).map fun pairs => .object (Dictionary.ofList pairs)

/-- The values of several items. -/
def itemValues? : List Written → Option (List Value)
  | [] => some []
  | item :: rest => do
    let value ← item.value?
    some (value :: (← itemValues? rest))

/-- The keys and values of several members, in the order of the text. -/
def memberValues? : List (Option String × Written) → Option (List (String × Value))
  | [] => some []
  | (key, item) :: rest => do
    let value ← item.value?
    some ((← key, value) :: (← memberValues? rest))

end

end Written

namespace Value

/-- How deeply a text that is read may nest. -/
def maxDepth : Nat := 127

/-- The value of a text. -/
def ofText? (text : String) : Option Value := do
  let tree ← Written.ofText? text
  if tree.depth ≤ maxDepth then tree.value? else none

end Value

end PolicyPages.Json
