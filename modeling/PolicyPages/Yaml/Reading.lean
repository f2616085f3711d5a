import PolicyPages.Yaml.Anchor
import PolicyPages.Yaml.Resolution
import PolicyPages.Yaml.Tokens

/-!
# Reading YAML texts

The value of a text with one document: references are replaced by what they mean, tags and plain
scalars are resolved, and no key may stand twice in a mapping. Collections nest 128 deep at most, and
references are followed at most a hundred times as often as the document has marks.
-/

namespace PolicyPages.Yaml

open Text (Unit8)

/-- How deeply collections may nest. -/
def maxDepth : Nat := 128

/-- How often references may be followed, for each mark of the document. -/
def followsPerMark : Nat := 100

/-- A tag of YAML's own. -/
def coreTag (name : String) : TagText :=
  Node.tagOfString ("tag:yaml.org,2002:" ++ name)

/-- What a tag does to its node. -/
inductive TagUse where
  /-- It has no effect on a collection and makes a scalar a text. -/
  | plainText
  /-- It names the kind of a scalar. -/
  | bool | integer | float | null
  /-- It stays on the value. -/
  | own (name : String)
  /-- It is read over. -/
  | unreadable
  /-- It is the mark `!` alone, which is no tag. -/
  | empty

/-- The use of a tag. -/
def TagUse.ofText (tag : TagText) : TagUse :=
  match tag with
  | .char '!' :: rest =>
    if rest.isEmpty then empty
    else
      match Unit8.chars? rest with
      | some name => own (String.ofList name)
      | none => unreadable
  | _ =>
    if tag = coreTag "bool" then bool
    else if tag = coreTag "int" then integer
    else if tag = coreTag "float" then float
    else if tag = coreTag "null" then null
    else plainText

/-- The value of a scalar that has no tag. -/
def untaggedScalar? (text : List Char) (plain : Bool) : Option Value :=
  if plain then
    match resolvePlain text with
    | .value value => some value
    | .tooLarge => none
  else some (.string (String.ofList text))

/-- The value of a scalar. -/
def scalar? (tag : Option TagText) (text : List Char) (plain : Bool) : Option Value :=
  match tag.map TagUse.ofText with
  | none | some .unreadable => untaggedScalar? text plain
  | some (.own name) => (untaggedScalar? text plain).map (.tagged name)
  | some .empty => none
  | some .plainText => some (.string (String.ofList text))
  | some .bool => (boolOf? (String.ofList text)).map .bool
  | some .integer =>
    match integerOf? text with
    | some (.value value) => some value
    | _ => none
  | some .float => (floatOf? text).map .float
  | some .null => if isNull (String.ofList text) then some .null else none

/-- The value of a collection under its tag. -/
def collection? (tag : Option TagText) (value : Value) : Option Value :=
  match tag.map TagUse.ofText with
  | some (.own name) => some (.tagged name value)
  | some .empty => none
  | _ => some value

/-- Whether no two keys are the same. -/
def distinctKeys : List (Value × Value) → Bool
  | [] => true
  | (key, _) :: rest => !rest.any (fun other => key.same other.1) && distinctKeys rest

/-- What the reader of values knows of the document. -/
structure Document where
  /-- The nodes with a number, the last one first. -/
  anchored : List (Nat × Node Nat)
  /-- How often references may be followed. -/
  maxFollows : Nat

/-- Reading a value, with a count of the references followed so far. -/
abbrev Follow := StateT Nat Option

namespace Document

/-- The node that is meant: the node itself, or the one it refers to. -/
def meant (document : Document) (node : Node Nat) : Follow (Node Nat) := do
  match node with
  | .reference number =>
    modify (· + 1)
    if (← get) ≤ document.maxFollows then document.anchored.lookup number else failure
  | node => pure node

/-- The value of a node, in which collections nest at most `depth` deep. -/
def value (document : Document) (depth : Nat) (node : Node Nat) : Follow Value := do
  match ← document.meant node with
  | .reference _ => failure
  | .scalar properties text plain => scalar? properties.tag text plain
  | .sequence properties items =>
    match depth with
    | 0 => failure
    | depth + 1 => do
      let items ← items.mapM (value document depth)
      collection? properties.tag (.sequence items)
  | .mapping properties entries =>
    match depth with
    | 0 => failure
    | depth + 1 => do
      let entries ← entries.mapM fun entry => do
        let key ← value document depth entry.1
        pure (key, ← value document depth entry.2)
      if distinctKeys entries then collection? properties.tag (.mapping entries) else failure

end Document

namespace Value

/-- The value of a document. -/
def ofNode? (node : Node.Written) : Option Value := do
  let (node, _) ← node.number? .none
  let document : Document := ⟨node.anchored.reverse, node.size * followsPerMark⟩
  let (value, _) ← (document.value maxDepth node).run 0
  some value

/-- The value of a text. A text without a document is null. -/
def ofText? (text : List Char) : Option Value := do
  match ← Node.ofTokens? (← tokens? text) with
  | some node => ofNode? node
  | none => some null

end Value

end PolicyPages.Yaml
