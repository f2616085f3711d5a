import PolicyPages.Json.Value

/-!
# Layers of JSON values

A value laid over another one: objects are merged member by member, at every depth, and whatever
else lies on top replaces what is below. A null member on top hides nothing. A member whose key is
new is taken as it is.
-/

namespace PolicyPages.Json.Value

mutual

/-- The value `top` laid over the value `below`. -/
def laidOver (top below : Value) : Value :=
  match top, below with
  | object members, object base => object (membersLaidOver members base)
  | top, _ => top

/-- The members of an object laid over those of another, one after the other. -/
def membersLaidOver : (members : List (String × Value)) → (base : List (String × Value)) →
    List (String × Value)
  | [], base => base
  | (key, value) :: rest, base =>
    if value.isNull then membersLaidOver rest base
    else
      let merged :=
        match Dictionary.get? base key with
        | some lower => value.laidOver lower
        | none => value
      membersLaidOver rest (Dictionary.insert base key merged)

end

end PolicyPages.Json.Value
