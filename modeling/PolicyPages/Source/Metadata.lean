import PolicyPages.Json.Value
import PolicyPages.Yaml.Reading

/-!
# The body of a metadata block

The comment lines of a block are a YAML mapping. The fields that matter are the scope, the title,
the description and the custom metadata; all others are read over. An empty body stands for a mapping
without entries.
-/

namespace PolicyPages.Source

open Json (Value)

/-- The fields of a metadata block. -/
structure Metadata where
  scope : Option String
  title : Option String
  description : Option String
  custom : Dictionary Value

/-- Why a body is no metadata. -/
inductive BodyFault where
  /-- The text is not YAML, or a field has a value of the wrong kind. -/
  | invalidYaml
  /-- The text is YAML, but no mapping. -/
  | notMapping
deriving DecidableEq, Repr

/-- The metadata of an empty body. -/
def Metadata.empty : Metadata := ⟨none, none, none, []⟩

/-- A key, which has to be a text. -/
def keyText? (key : Yaml.Value) : Option String :=
  match key.untagged with
  | .string text => some text
  | _ => none

mutual

/-- A YAML value as a JSON value. A tag of the document's own has no counterpart, and neither has a
key that is no text. A number that is not finite becomes null. -/
def jsonOf? : Yaml.Value → Option Value
  | .null => some .null
  | .bool b => some (.bool b)
  | .integer n => (Json.Integer.ofInt? n).map .integer
  | .float x => some (.ofNumber x)
  | .string text => some (.string text)
  | .sequence items => (jsonItems? items).map .array
  | .mapping entries => (jsonEntries? entries).map fun pairs => .object (Dictionary.ofList pairs)
  | .tagged .. => none

/-- The items of a sequence as JSON values. -/
def jsonItems? : List Yaml.Value → Option (List Value)
  | [] => some []
  | item :: rest => do
    let value ← jsonOf? item
    some (value :: (← jsonItems? rest))

/-- The entries of a mapping as pairs of texts and JSON values. -/
def jsonEntries? : List (Yaml.Value × Yaml.Value) → Option (List (String × Value))
  | [] => some []
  | (key, item) :: rest => do
    let value ← jsonOf? item
    some ((← keyText? key, value) :: (← jsonEntries? rest))

end

/-- The value of a field that is a text or null. -/
def optionalText? : Yaml.Value → Option (Option String)
  | .null => some none
  | value =>
    match value.untagged with
    | .string text => some (some text)
    | _ => none

/-- The value of a field that is a mapping or null. -/
def customOf? (value : Yaml.Value) : Option (Dictionary Value) :=
  match value.untagged with
  | .null => some []
  | .mapping entries => (jsonEntries? entries).map Dictionary.ofList
  | _ => none

/-- The value of the field with a given name, if there is just one or none. -/
def field? (entries : List (String × Yaml.Value)) (name : String) : Option (Option Yaml.Value) :=
  match entries.filter (·.1 == name) with
  | [] => some none
  | [(_, value)] => some (some value)
  | _ => none

/-- The text of a field. It is none when there is no such field or its value is null. -/
def textField? (entries : List (String × Yaml.Value)) (name : String) : Option (Option String) :=
  match field? entries name with
  | none => none
  | some none => some none
  | some (some value) => optionalText? value

/-- The entries of the custom metadata. -/
def customField? (entries : List (String × Yaml.Value)) : Option (Dictionary Value) :=
  match field? entries "custom" with
  | none => none
  | some none => some []
  | some (some value) => customOf? value

/-- An entry with its key as a text. -/
def textKeyed? (entry : Yaml.Value × Yaml.Value) : Option (String × Yaml.Value) :=
  (keyText? entry.1).map fun name => (name, entry.2)

/-- The metadata of a mapping. -/
def Metadata.ofEntries? (entries : List (Yaml.Value × Yaml.Value)) : Option Metadata := do
  let entries ← entries.mapM textKeyed?
  let scope ← textField? entries "scope"
  let title ← textField? entries "title"
  let description ← textField? entries "description"
  let custom ← customField? entries
  some { scope, title, description, custom }

/-- The metadata of a YAML value. -/
def Metadata.ofValue : Yaml.Value → Except BodyFault Metadata
  | .null => .ok .empty
  | .mapping entries =>
    match ofEntries? entries with
    | some metadata => .ok metadata
    | none => .error .invalidYaml
  | _ => .error .notMapping

/-- A reader of YAML: the value of a text, if it has one. -/
abbrev YamlReader := List Char → Option Yaml.Value

/-- The metadata of the body of a block, as a given reader reads it. -/
def Metadata.ofTextWith (read : YamlReader) (body : List Char) : Except BodyFault Metadata :=
  match read body with
  | none => .error .invalidYaml
  | some value => ofValue value

/-- The metadata of the body of a block. -/
def Metadata.ofText (body : List Char) : Except BodyFault Metadata :=
  ofTextWith Yaml.Value.ofText? body

end PolicyPages.Source
