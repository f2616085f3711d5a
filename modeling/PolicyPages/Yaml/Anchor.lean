import PolicyPages.Yaml.Node

/-!
# References between nodes

A reference means the node that was given its name last before the reference. Names are replaced by
numbers first. A name gets the number of different names that are known when it is given, also when
it is given again; so two names may share a number, and the node that got it last is meant by
both.
-/

namespace PolicyPages.Yaml.Node

/-- The names that are known, with their numbers, last first. -/
structure Names where
  numbers : List (List Char × Nat)
  distinct : Nat

/-- Nothing has a name yet. -/
def Names.none : Names := ⟨[], 0⟩

/-- Gives a name to a node. The result is its number. -/
def Names.give (names : Names) (name : List Char) : Nat × Names :=
  (names.distinct, {
    numbers := (name, names.distinct) :: names.numbers
    distinct := if (names.numbers.lookup name).isSome then names.distinct else names.distinct + 1 })

/-- The properties of a node with a number for its name. -/
def numberProperties (properties : Properties (List Char)) (names : Names) :
    Properties Nat × Names :=
  match properties.anchor with
  | some name =>
    let (number, names) := names.give name
    (⟨some number, properties.tag⟩, names)
  | none => (⟨none, properties.tag⟩, names)

mutual

/-- Replaces the names of a node by numbers, in the order of the text. A reference to an unknown
name is refused. -/
def number? : Written → Names → Option (Node Nat × Names)
  | .reference name, names => do
    some (.reference (← names.numbers.lookup name), names)
  | .scalar properties text plain, names =>
    let (properties, names) := numberProperties properties names
    some (.scalar properties text plain, names)
  | .sequence properties items, names => do
    let (properties, names) := numberProperties properties names
    let (items, names) ← numberItems? items names
    some (.sequence properties items, names)
  | .mapping properties entries, names => do
    let (properties, names) := numberProperties properties names
    let (entries, names) ← numberEntries? entries names
    some (.mapping properties entries, names)

/-- Replaces the names of several nodes. -/
def numberItems? : List Written → Names → Option (List (Node Nat) × Names)
  | [], names => some ([], names)
  | item :: rest, names => do
    let (item, names) ← number? item names
    let (rest, names) ← numberItems? rest names
    some (item :: rest, names)

/-- Replaces the names of the keys and values of several entries. -/
def numberEntries? : List (Written × Written) → Names → Option (List (Node Nat × Node Nat) × Names)
  | [], names => some ([], names)
  | (key, value) :: rest, names => do
    let (key, names) ← number? key names
    let (value, names) ← number? value names
    let (rest, names) ← numberEntries? rest names
    some ((key, value) :: rest, names)

end

/-- The node itself, if it has a number. -/
def numbered (node : Node Nat) (properties : Properties Nat) : List (Nat × Node Nat) :=
  (properties.anchor.map fun number => (number, node)).toList

mutual

/-- The nodes with a number, in the order of the text. -/
def anchored : Node Nat → List (Nat × Node Nat)
  | .reference _ => []
  | .scalar properties text plain => numbered (.scalar properties text plain) properties
  | .sequence properties items =>
    numbered (.sequence properties items) properties ++ anchoredItems items
  | .mapping properties entries =>
    numbered (.mapping properties entries) properties ++ anchoredEntries entries

/-- The nodes with a number below several nodes. -/
def anchoredItems : List (Node Nat) → List (Nat × Node Nat)
  | [] => []
  | item :: rest => item.anchored ++ anchoredItems rest

/-- The nodes with a number below several entries. -/
def anchoredEntries : List (Node Nat × Node Nat) → List (Nat × Node Nat)
  | [] => []
  | (key, value) :: rest => key.anchored ++ value.anchored ++ anchoredEntries rest

end

mutual

/-- The number of marks in a node: one for a scalar or a reference, two for a collection. -/
def size {ν : Type} : Node ν → Nat
  | .sequence _ items => itemsSize items + 2
  | .mapping _ entries => entriesSize entries + 2
  | _ => 1

/-- The number of marks in several nodes. -/
def itemsSize {ν : Type} : List (Node ν) → Nat
  | [] => 0
  | item :: rest => item.size + itemsSize rest

/-- The number of marks in several entries. -/
def entriesSize {ν : Type} : List (Node ν × Node ν) → Nat
  | [] => 0
  | (key, value) :: rest => key.size + value.size + entriesSize rest

end

end PolicyPages.Yaml.Node
