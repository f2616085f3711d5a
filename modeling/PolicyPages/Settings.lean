import PolicyPages.Files.Error
import PolicyPages.Log.Level
import PolicyPages.Text.Affix

/-!
# Settings

What a run can be told: how much it logs, which files are rules and which are tests of rules, and
where sources are linked. `Settings.validate` checks what the single values cannot show.
-/

namespace PolicyPages

open Log (Level)

/-- How much is logged. -/
structure LoggingSettings where
  level : String
deriving DecidableEq, Repr

/-- Which files are rules: those whose names end in the rule suffix and not in the test suffix. -/
structure DiscoverySettings where
  ruleSuffix : String
  testSuffix : String
deriving DecidableEq, Repr

/-- How pages are rendered: the address below which sources are linked, if any. -/
structure RenderSettings where
  sourceUrl : Option String
deriving DecidableEq, Repr

/-- All settings. -/
structure Settings where
  logging : LoggingSettings
  discovery : DiscoverySettings
  render : RenderSettings
deriving DecidableEq, Repr

/-- The settings of a run that is told nothing. -/
def Settings.default : Settings where
  logging := ⟨"warn"⟩
  discovery := ⟨".rego", "_test.rego"⟩
  render := ⟨none⟩

/-- The levels that settings may name. -/
def levelNames : String :=
  ", ".intercalate (Level.all.map Level.name)

/-- Whether a text names a log level. -/
def isLogLevel (text : String) : Bool :=
  (Level.ofName? text).isSome

/-- What is wrong with settings. -/
inductive SettingsFault where
  | emptyRuleSuffix
  | suffixMismatch (test rule : String)
  | unknownLevel (level : String)
deriving DecidableEq, Repr

/-- The rule on suffixes: the test suffix ends in the rule suffix. -/
def suffixRule (test rule : String) : String :=
  "testSuffix '" ++ test ++ "' must end with ruleSuffix '" ++ rule ++ "'"

/-- The text of a fault. -/
def SettingsFault.message : SettingsFault → String
  | emptyRuleSuffix => "discovery.ruleSuffix must not be empty"
  | suffixMismatch test rule => "discovery." ++ suffixRule test rule
  | unknownLevel level => "logging.level '" ++ level ++ "' is not one of " ++ levelNames

/-- Why settings cannot be used. -/
inductive SettingsError where
  /-- The file cannot be read. -/
  | unreadable (error : Files.Error)
  /-- The text of the file is not that of settings. -/
  | notSettings
  | invalid (fault : SettingsFault)
deriving DecidableEq, Repr

/-- The text that explains what keeps a text from being settings. -/
def unreadableSettings : String :=
  "not JSON, or a field whose value is of the wrong kind"

/-- The text of an error. -/
def SettingsError.message : SettingsError → String
  | unreadable error => "failed to read settings file: " ++ error.message
  | notSettings => "failed to parse settings JSON: " ++ unreadableSettings
  | invalid fault => "invalid settings value: " ++ fault.message

/-- The text of an error, and the text of what lies behind it, if there is something. -/
def SettingsError.causes (error : SettingsError) : List String :=
  error.message ::
    match error with
    | unreadable error => [error.message]
    | notSettings => [unreadableSettings]
    | invalid _ => []

/-- Checks that the suffixes fit together and that the level exists. The first fault counts. -/
def Settings.validate (settings : Settings) : Except SettingsFault Unit :=
  let rule := settings.discovery.ruleSuffix
  let test := settings.discovery.testSuffix
  if rule.isEmpty then .error .emptyRuleSuffix
  else if !Text.endsWith test rule then .error (.suffixMismatch test rule)
  else if !isLogLevel settings.logging.level then .error (.unknownLevel settings.logging.level)
  else .ok ()

end PolicyPages
