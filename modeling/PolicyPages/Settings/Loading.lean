import PolicyPages.Json.Merge
import PolicyPages.Json.Reading
import PolicyPages.Settings.Json
import PolicyPages.Settings.Override

/-!
# Loading settings

Settings come in three layers: the defaults, a file laid over them, and the environment laid over
both. The result is checked at the end.
-/

namespace PolicyPages

open Json (Value)

/-- What is known of the settings file. -/
inductive SettingsFile where
  | missing
  /-- The file is there and cannot be read. -/
  | unreadable (error : Files.Error)
  | text (content : String)
deriving DecidableEq, Repr

/-- The settings of a file, laid over the defaults. -/
def SettingsFile.settings : SettingsFile → Except SettingsError Settings
  | missing => .ok .default
  | unreadable error => .error (.unreadable error)
  | text content =>
    match Value.ofText? content with
    | none => .error .notSettings
    | some user =>
      match Settings.ofJson? (user.laidOver Settings.default.toJson) with
      | some settings => .ok settings
      | none => .error .notSettings

/-- The settings of a run, and the overrides that were ignored. -/
def Settings.load (file : SettingsFile) (environment : Environment) :
    Except SettingsError (Overridden Settings) := do
  let base ← file.settings
  let overridden := base.override environment
  match overridden.value.validate with
  | .ok () => .ok overridden
  | .error fault => .error (.invalid fault)

end PolicyPages
