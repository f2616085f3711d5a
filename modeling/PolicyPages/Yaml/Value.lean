import PolicyPages.Decimal.Binary64

/-!
# YAML values

The value of a document after references, tags and plain scalars have been resolved. The keys of a
mapping are values themselves; two keys are the same when `Value.same` says so.
-/

namespace PolicyPages.Yaml

open PolicyPages.Decimal (Binary64)

/-- A YAML value. A tag of the document's own stays on its value. -/
inductive Value where
  | null
  | bool (b : Bool)
  | integer (n : Int)
  | float (x : Binary64)
  | string (text : String)
  | sequence (items : List Value)
  | mapping (entries : List (Value × Value))
  | tagged (tag : String) (value : Value)

namespace Value

instance : Inhabited Value := ⟨null⟩

mutual

/-- Whether two values are equal. A float equals no integer, an undefined number equals itself, and
the order of a mapping's entries does not count. -/
def same : Value → Value → Bool
  | null, null => true
  | bool a, bool b => a == b
  | integer a, integer b => a == b
  | float a, float b => a.sameNumber b
  | string a, string b => a == b
  | sequence as, sequence bs => sameItems as bs
  | mapping as, mapping bs => as.length == bs.length && within as bs
  | tagged s a, tagged t b => s == t && same a b
  | _, _ => false

/-- Whether two sequences are equal item by item. -/
def sameItems : List Value → List Value → Bool
  | [], [] => true
  | a :: as, b :: bs => same a b && sameItems as bs
  | _, _ => false

/-- Whether each entry has an equal one among others. -/
def within : List (Value × Value) → List (Value × Value) → Bool
  | [], _ => true
  | (key, value) :: rest, others =>
    others.any (fun other => same key other.1 && same value other.2) && within rest others

end

/-- The value without the tags around it. -/
def untagged : Value → Value
  | tagged _ value => value.untagged
  | value => value

end Value

end PolicyPages.Yaml
