import PolicyPages.Json.Value
import PolicyPages.Settings

/-!
# Settings as JSON

Settings are an object with an object for each section. The reader needs no field: whatever is
missing has its default, and members it does not know it passes over. It also takes a section, or all
settings, as the bare list of its fields in order, of which the last ones may be missing.
-/

namespace PolicyPages

open Json (Value)

/-- The settings as an object. A source address that is not set is left out. -/
def Settings.toJson (settings : Settings) : Value :=
  .object (Dictionary.ofList
    [("logging", .object (Dictionary.ofList [("level", .string settings.logging.level)])),
      ("discovery", .object (Dictionary.ofList
        [("ruleSuffix", .string settings.discovery.ruleSuffix),
          ("testSuffix", .string settings.discovery.testSuffix)])),
      ("render", .object
        (match settings.render.sourceUrl with
          | some url => Dictionary.ofList [("sourceUrl", .string url)]
          | none => []))])

/-- The field of a record: the member with its name, or the item at its position. -/
def recordField (record : Value) (name : String) (position : Nat) : Option Value :=
  match record with
  | .object members => Dictionary.get? members name
  | .array items => items[position]?
  | _ => none

/-- Whether a value can be a record with a number of fields: an object, or a list that is not
longer. -/
def isRecord (fields : Nat) : Value → Bool
  | .object _ => true
  | .array items => items.length ≤ fields
  | _ => false

/-- The text of a field, or its default if it is missing. -/
def textField? (record : Value) (name : String) (position : Nat) (default : String) :
    Option String :=
  match recordField record name position with
  | none => some default
  | some value => value.string?

/-- The section on logging. -/
def LoggingSettings.ofJson? (record : Value) : Option LoggingSettings := do
  if isRecord 1 record then
    some ⟨← textField? record "level" 0 Settings.default.logging.level⟩
  else none

/-- The section on discovery. -/
def DiscoverySettings.ofJson? (record : Value) : Option DiscoverySettings := do
  if isRecord 2 record then
    some ⟨← textField? record "ruleSuffix" 0 Settings.default.discovery.ruleSuffix,
      ← textField? record "testSuffix" 1 Settings.default.discovery.testSuffix⟩
  else none

/-- The section on rendering, in which the source address may be null. -/
def RenderSettings.ofJson? (record : Value) : Option RenderSettings :=
  if isRecord 1 record then
    match recordField record "sourceUrl" 0 with
    | none | some .null => some ⟨none⟩
    | some value => value.string?.map fun url => ⟨some url⟩
  else none

/-- A section, or its default if it is missing. -/
def sectionField? {α : Type} (record : Value) (name : String) (position : Nat)
    (read : Value → Option α) (default : α) : Option α :=
  match recordField record name position with
  | none => some default
  | some value => read value

/-- The settings of a JSON value. -/
def Settings.ofJson? (record : Value) : Option Settings := do
  if isRecord 3 record then
    some {
      logging := ← sectionField? record "logging" 0 LoggingSettings.ofJson? Settings.default.logging
      discovery := ←
        sectionField? record "discovery" 1 DiscoverySettings.ofJson? Settings.default.discovery
      render := ← sectionField? record "render" 2 RenderSettings.ofJson? Settings.default.render }
  else none

end PolicyPages
