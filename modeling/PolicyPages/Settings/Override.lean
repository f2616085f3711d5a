import PolicyPages.Settings

/-!
# Settings from the environment

Four variables override settings. An empty variable counts as unset. A level that does not exist is
ignored. The two suffixes are taken together or not at all: a rule suffix on its own carries the mark
of tests over (`.rg` gives `_test.rg`), and a pair that does not fit together is ignored.
-/

namespace PolicyPages

/-- A variable that overrides a setting. -/
inductive OverrideKey where
  | logLevel
  | ruleSuffix
  | testSuffix
  | sourceUrl
deriving DecidableEq, Repr

/-- All such variables. -/
def OverrideKey.all : List OverrideKey := [logLevel, ruleSuffix, testSuffix, sourceUrl]

/-- The name of a variable. -/
def OverrideKey.name : OverrideKey → String
  | logLevel => "POLICYDOC_LOG_LEVEL"
  | ruleSuffix => "POLICYDOC_RULE_SUFFIX"
  | testSuffix => "POLICYDOC_TEST_SUFFIX"
  | sourceUrl => "POLICYDOC_SOURCE_URL"

/-- The values of variables by name. -/
abbrev Environment := String → Option String

/-- The value of a variable that is set to something. -/
def Environment.value? (environment : Environment) (key : OverrideKey) : Option String :=
  (environment key.name).filter fun value => !value.isEmpty

/-- Why an override is ignored. -/
inductive Rejection where
  | unknownLevel
  | suffixMismatch (test rule : String)
deriving DecidableEq, Repr

/-- The text of a reason. -/
def Rejection.message : Rejection → String
  | unknownLevel => "not one of " ++ levelNames
  | suffixMismatch test rule => suffixRule test rule

/-- An override that was not applied. -/
structure IgnoredOverride where
  key : OverrideKey
  value : String
  reason : Rejection
deriving DecidableEq, Repr

/-- The text that reports an ignored override. -/
def IgnoredOverride.message (ignored : IgnoredOverride) : String :=
  ignored.key.name ++ "='" ++ ignored.value ++ "' ignored: " ++ ignored.reason.message

/-- A settings value and the overrides that were ignored on the way to it. -/
structure Overridden (α : Type) where
  value : α
  ignored : List IgnoredOverride

/-- The level after its override. -/
def LoggingSettings.override (logging : LoggingSettings) (level : Option String) :
    Overridden LoggingSettings :=
  match level with
  | none => ⟨logging, []⟩
  | some text =>
    if isLogLevel text then ⟨⟨Log.Level.lowercase text⟩, []⟩
    else ⟨logging, [⟨.logLevel, text, .unknownLevel⟩]⟩

/-- The mark of tests that is put before a rule suffix if none is known. -/
def defaultTestMark : String := "_test"

/-- The mark of tests: what precedes the rule suffix in the test suffix. -/
def DiscoverySettings.testMark (discovery : DiscoverySettings) : String :=
  match Text.dropEnd? discovery.testSuffix discovery.ruleSuffix with
  | some mark => if mark.isEmpty then defaultTestMark else mark
  | none => defaultTestMark

/-- The suffixes that overrides ask for, if any is set. -/
def DiscoverySettings.requested? (discovery : DiscoverySettings) :
    (rule test : Option String) → Option DiscoverySettings
  | none, none => none
  | some rule, none => some ⟨rule, discovery.testMark ++ rule⟩
  | rule, some test => some ⟨rule.getD discovery.ruleSuffix, test⟩

/-- The reports on suffixes that were set and ignored. -/
def ignoredSuffixes (rule test : Option String) (reason : Rejection) : List IgnoredOverride :=
  (rule.map fun value => (⟨.ruleSuffix, value, reason⟩ : IgnoredOverride)).toList
    ++ (test.map fun value => (⟨.testSuffix, value, reason⟩ : IgnoredOverride)).toList

/-- The suffixes after their overrides. -/
def DiscoverySettings.override (discovery : DiscoverySettings) (rule test : Option String) :
    Overridden DiscoverySettings :=
  match discovery.requested? rule test with
  | none => ⟨discovery, []⟩
  | some requested =>
    if Text.endsWith requested.testSuffix requested.ruleSuffix then ⟨requested, []⟩
    else
      ⟨discovery,
        ignoredSuffixes rule test (.suffixMismatch requested.testSuffix requested.ruleSuffix)⟩

/-- The settings after all overrides. -/
def Settings.override (settings : Settings) (environment : Environment) : Overridden Settings :=
  let logging := settings.logging.override (environment.value? .logLevel)
  let discovery :=
    settings.discovery.override (environment.value? .ruleSuffix) (environment.value? .testSuffix)
  let sourceUrl :=
    match environment.value? .sourceUrl with
    | some url => some url
    | none => settings.render.sourceUrl
  ⟨⟨logging.value, discovery.value, ⟨sourceUrl⟩⟩, logging.ignored ++ discovery.ignored⟩

end PolicyPages
