import PolicyPages.Yaml.Token

/-!
# YAML nodes

The tree of a document as it is written: scalars, sequences and mappings with their anchors and
tags, and references to nodes with an anchor. `Node.ofTokens?` builds it from the tokens of a text
that holds one document at most.

The reader is a set of functions that take the tokens left and give the tokens left after them. Each
carries a bound on how deeply the calls nest; a chain of three calls passes a token, so the bound
that `ofTokens?` gives is never met.
-/

namespace PolicyPages.Yaml

open Text (Unit8)

/-- What stands in front of a node. Anchors have names of type `ν`. -/
structure Properties (ν : Type) where
  anchor : Option ν
  tag : Option TagText
deriving DecidableEq, Repr

/-- A node as it is written. -/
inductive Node (ν : Type) where
  | reference (name : ν)
  | scalar (properties : Properties ν) (text : List Char) (plain : Bool)
  | sequence (properties : Properties ν) (items : List (Node ν))
  | mapping (properties : Properties ν) (entries : List (Node ν × Node ν))

namespace Node

/-- A node whose anchors have the names that are written. -/
abbrev Written := Node (List Char)

/-- No anchor and no tag. -/
def bare : Properties (List Char) := ⟨none, none⟩

/-- The node that stands where nothing is written. -/
def empty (properties : Properties (List Char)) : Written :=
  .scalar properties [] true

/-! ### Tags -/

/-- What the handles of tags stand for. -/
abbrev Handles := List (TagText × TagText)

/-- The text as that of a tag. -/
def tagOfString (text : String) : TagText :=
  text.toList.map .char

/-- The handles that every document has. -/
def defaultHandles : Handles :=
  [(tagOfString "!", tagOfString "!"), (tagOfString "!!", tagOfString "tag:yaml.org,2002:")]

/-- The full text of a tag. Its handle has to be known; the empty handle adds nothing. -/
def fullTag? (handles : Handles) (handle suffix : TagText) : Option TagText :=
  if handle.isEmpty then some suffix
  else (handles.lookup handle).map (· ++ suffix)

/-- Reads an anchor and a tag, in either order. -/
def properties? (handles : Handles) : List Token → Option (Properties (List Char) × List Token)
  | .anchor name :: .tag handle suffix :: rest | .tag handle suffix :: .anchor name :: rest => do
    some (⟨some name, some (← fullTag? handles handle suffix)⟩, rest)
  | .anchor name :: rest => some (⟨some name, none⟩, rest)
  | .tag handle suffix :: rest => do
    some (⟨none, some (← fullTag? handles handle suffix)⟩, rest)
  | rest => some (bare, rest)

/-! ### Nodes -/

/-- Where a node stands: whether it may be a block, and whether a dash at the column of the mapping
around it begins a sequence. -/
inductive Place where
  | block
  | blockValue
  | flow
deriving DecidableEq

/-- Passes over the comma before an entry that is not the first. -/
def flowNext? (first : Bool) (tokens : List Token) : Option (List Token) :=
  if first then some tokens
  else
    match tokens with
    | .flowEntry :: rest => some rest
    | _ => none

mutual

/-- Reads a node. -/
def node? (handles : Handles) : (bound : Nat) → Place → List Token → Option (Written × List Token)
  | 0, _, _ => none
  | bound + 1, place, tokens =>
    match tokens with
    | .reference name :: rest => some (.reference name, rest)
    | _ => do
      let (properties, rest) ← properties? handles tokens
      match rest with
      | .scalar text plain :: rest => some (.scalar properties text plain, rest)
      | .flowSequenceStart :: rest => do
        let (items, rest) ← flowItems? handles bound true rest
        some (.sequence properties items, rest)
      | .flowMappingStart :: rest => do
        let (entries, rest) ← flowEntries? handles bound true rest
        some (.mapping properties entries, rest)
      | .blockEntry :: _ =>
        if place = .blockValue then do
          let (items, rest) ← looseItems? handles bound rest
          some (.sequence properties items, rest)
        else if properties = bare then none
        else some (empty properties, rest)
      | .blockSequenceStart :: after =>
        if place ≠ .flow then do
          let (items, rest) ← blockItems? handles bound after
          some (.sequence properties items, rest)
        else if properties = bare then none
        else some (empty properties, rest)
      | .blockMappingStart :: after =>
        if place ≠ .flow then do
          let (entries, rest) ← blockEntries? handles bound after
          some (.mapping properties entries, rest)
        else if properties = bare then none
        else some (empty properties, rest)
      | _ => if properties = bare then none else some (empty properties, rest)

/-- Reads the items of a block sequence up to its end. -/
def blockItems? (handles : Handles) : (bound : Nat) → List Token → Option (List Written × List Token)
  | 0, _ => none
  | _ + 1, .blockEnd :: rest => some ([], rest)
  | bound + 1, .blockEntry :: rest => do
    let (item, rest) ←
      match rest with
      | .blockEntry :: _ | .blockEnd :: _ => some (empty bare, rest)
      | _ => node? handles bound .block rest
    let (items, rest) ← blockItems? handles bound rest
    some (item :: items, rest)
  | _ + 1, _ => none

/-- Reads the items of a sequence at the column of the mapping around it, for as long as there are
dashes. -/
def looseItems? (handles : Handles) : (bound : Nat) → List Token → Option (List Written × List Token)
  | 0, _ => none
  | bound + 1, .blockEntry :: rest => do
    let (item, rest) ←
      match rest with
      | .blockEntry :: _ | .key :: _ | .value :: _ | .blockEnd :: _ => some (empty bare, rest)
      | _ => node? handles bound .block rest
    let (items, rest) ← looseItems? handles bound rest
    some (item :: items, rest)
  | _ + 1, rest => some ([], rest)

/-- Reads the entries of a block mapping up to its end. -/
def blockEntries? (handles : Handles) :
    (bound : Nat) → List Token → Option (List (Written × Written) × List Token)
  | 0, _ => none
  | _ + 1, .blockEnd :: rest => some ([], rest)
  | bound + 1, .key :: rest => do
    let (key, rest) ← blockPart? handles bound rest
    let (value, rest) ←
      match rest with
      | .value :: rest => blockPart? handles bound rest
      | _ => some (empty bare, rest)
    let (entries, rest) ← blockEntries? handles bound rest
    some ((key, value) :: entries, rest)
  | _ + 1, _ => none

/-- Reads a key or a value of a block mapping. -/
def blockPart? (handles : Handles) : (bound : Nat) → List Token → Option (Written × List Token)
  | 0, _ => none
  | bound + 1, rest =>
    match rest with
    | .key :: _ | .value :: _ | .blockEnd :: _ => some (empty bare, rest)
    | _ => node? handles bound .blockValue rest

/-- Reads the items of a flow sequence up to its end. An item may be a mapping with one entry. -/
def flowItems? (handles : Handles) :
    (bound : Nat) → (first : Bool) → List Token → Option (List Written × List Token)
  | 0, _, _ => none
  | _ + 1, _, .flowSequenceEnd :: rest => some ([], rest)
  | bound + 1, first, tokens => do
    let rest ← flowNext? first tokens
    match rest with
    | .flowSequenceEnd :: rest => some ([], rest)
    | .key :: rest => do
      let (key, rest) ←
        match rest with
        -- a mark that stands in place of the key is passed over
        | .value :: rest | .flowEntry :: rest | .flowSequenceEnd :: rest => some (empty bare, rest)
        | _ => node? handles bound .flow rest
      let (value, rest) ←
        match rest with
        | .value :: rest =>
          match rest with
          | .flowEntry :: _ | .flowSequenceEnd :: _ => some (empty bare, rest)
          | _ => node? handles bound .flow rest
        | _ => some (empty bare, rest)
      let (items, rest) ← flowItems? handles bound false rest
      some (.mapping bare [(key, value)] :: items, rest)
    | _ => do
      let (item, rest) ← node? handles bound .flow rest
      let (items, rest) ← flowItems? handles bound false rest
      some (item :: items, rest)

/-- Reads the entries of a flow mapping up to its end. -/
def flowEntries? (handles : Handles) :
    (bound : Nat) → (first : Bool) → List Token → Option (List (Written × Written) × List Token)
  | 0, _, _ => none
  | _ + 1, _, .flowMappingEnd :: rest => some ([], rest)
  | bound + 1, first, tokens => do
    let rest ← flowNext? first tokens
    match rest with
    | .flowMappingEnd :: rest => some ([], rest)
    | .key :: rest => do
      let (key, rest) ←
        match rest with
        | .value :: _ | .flowEntry :: _ | .flowMappingEnd :: _ => some (empty bare, rest)
        | _ => node? handles bound .flow rest
      let (value, rest) ←
        match rest with
        | .value :: rest =>
          match rest with
          | .flowEntry :: _ | .flowMappingEnd :: _ => some (empty bare, rest)
          | _ => node? handles bound .flow rest
        | _ => some (empty bare, rest)
      let (entries, rest) ← flowEntries? handles bound false rest
      some ((key, value) :: entries, rest)
    | _ => do
      let (key, rest) ← node? handles bound .flow rest
      let (entries, rest) ← flowEntries? handles bound false rest
      some ((key, empty bare) :: entries, rest)

end

/-! ### Documents -/

/-- The directives before a document. -/
structure Directives where
  version : Bool
  handles : Handles

/-- Reads the directives before a document: one version, which is 1.1 or 1.2, and each handle
once. -/
def directives? (found : Directives) : List Token → Option (Directives × List Token)
  | .versionDirective major minor :: rest =>
    if found.version || major ≠ 1 || (minor ≠ 1 && minor ≠ 2) then none
    else directives? { found with version := true } rest
  | .tagDirective handle replacement :: rest =>
    if (found.handles.lookup handle).isSome then none
    else directives? { found with handles := (handle, replacement) :: found.handles } rest
  | rest => some (found, rest)

/-- Reads the content of a document that begins with its mark. -/
def content? (handles : Handles) (tokens : List Token) : Option (Written × List Token) :=
  match tokens with
  | [] | .documentStart :: _ | .documentEnd :: _ | .versionDirective .. :: _ | .tagDirective .. :: _ =>
    some (empty bare, tokens)
  | _ => node? handles (4 * tokens.length + 4) .block tokens

/-- The document of a sequence of tokens. A text without tokens has none; nothing but its end mark
may follow a document. -/
def ofTokens? (tokens : List Token) : Option (Option Written) := do
  if tokens.isEmpty then some none
  else
    let (found, rest) ← directives? ⟨false, []⟩ tokens
    let handles := found.handles ++ defaultHandles
    let (root, rest) ←
      match rest with
      | .documentStart :: rest => content? handles rest
      | _ =>
        if rest.length = tokens.length then
          node? defaultHandles (4 * tokens.length + 4) .block tokens
        else none
    if rest.all (· = .documentEnd) then some (some root) else none

end Node

end PolicyPages.Yaml
