import PolicyPages.Log.Level
import PolicyPages.Path

/-!
# Log events

Everything a run has to say, in the order in which it happens. An event is a cause with its data; its
level, its message and its fields are read off the cause.
-/

namespace PolicyPages.Log

/-- A field of an event. A text that is logged as a text is put in quotes on a log line. -/
structure Field where
  name : String
  text : String
  quoted : Bool
deriving DecidableEq, Repr

/-- A field that is shown as it is. -/
def Field.shown (name text : String) : Field := ⟨name, text, false⟩

/-- A field that is a text. -/
def Field.literal (name text : String) : Field := ⟨name, text, true⟩

/-- A field that is a number. -/
def Field.count (name : String) (n : Nat) : Field := ⟨name, toString n, false⟩

/-- What happens in a run. -/
inductive Event where
  /-- Settings are read from a file, whose path is shown in quotes. -/
  | settingsFound (path : String)
  | settingsMissing (path : String)
  | overrideIgnored (key value reason : String)
  | nameSkipped (path : Path)
  | discovered (roots modules : Nat)
  | moduleLoaded (file : Path) (annotations : Nat)
  | packageKnown (package : String) (file : Path)
  | annotationsLoaded (modules annotations : Nat)
  | annotationsDumped (path : Path) (annotations : Nat)
  | packageMissing (rule : String) (file : Path) (package : String)
  | ruleUndocumented (rule : String) (file : Path)
  | ruleUnowned (rule : String) (file : Path)
  | topicBuilt (topic : String) (packages collections : Nat)
  | topicWritten (topic : String) (files : Nat)
  | generated (out : Path) (files annotations warnings : Nat)
deriving DecidableEq

namespace Event

/-- The level of an event. -/
def level : Event → Level
  | overrideIgnored .. | packageMissing .. | ruleUnowned .. => .warn
  | generated .. => .info
  | _ => .debug

/-- The target of an event: the name of the part of the program that it comes from, which filters
refer to. -/
def target : Event → String
  | settingsFound _ | settingsMissing _ => "policydoc_settings::loader"
  | overrideIgnored .. => "policydoc"
  | nameSkipped _ | discovered .. | moduleLoaded .. => "policydoc_annotations::loader"
  | packageKnown .. => "policydoc_annotations::registry"
  | packageMissing .. | ruleUndocumented .. | ruleUnowned .. | topicBuilt .. =>
    "policydoc_model::builder"
  | topicWritten .. => "policydoc_render::writer"
  | annotationsLoaded .. | annotationsDumped .. | generated .. => "policydoc::pipeline"

/-- The message of an event. -/
def message : Event → String
  | settingsFound _ => "loading settings from file"
  | settingsMissing _ => "settings file not found, using defaults"
  | overrideIgnored .. => "environment override ignored"
  | nameSkipped _ => "skipping entry with non-UTF-8 name"
  | discovered .. => "discovery complete"
  | moduleLoaded .. => "module loaded"
  | packageKnown .. => "package already indexed, keeping first declaration"
  | annotationsLoaded .. => "annotations loaded"
  | annotationsDumped .. => "annotations dumped"
  | packageMissing .. => "package path not found for collection rule, skipping"
  | ruleUndocumented .. => "rule in collection module is not documented"
  | ruleUnowned .. => "rule has no package annotation in this topic, skipping"
  | topicBuilt .. => "topic model built"
  | topicWritten .. => "topic written"
  | generated .. => "documentation generated"

/-- The fields of an event in order. -/
def fields : Event → List Field
  | settingsFound path | settingsMissing path => [.shown "path" path]
  | overrideIgnored key value reason =>
    [.literal "key" key, .shown "value" value, .shown "reason" reason]
  | nameSkipped path => [.shown "path" path.display]
  | discovered roots modules => [.count "roots" roots, .count "modules" modules]
  | moduleLoaded file annotations =>
    [.shown "file" file.display, .count "annotations" annotations]
  | packageKnown package file => [.shown "package" package, .shown "file" file.display]
  | annotationsLoaded modules annotations =>
    [.count "modules" modules, .count "annotations" annotations]
  | annotationsDumped path annotations =>
    [.shown "path" path.display, .count "annotations" annotations]
  | packageMissing rule file package =>
    [.shown "rule" rule, .shown "file" file.display, .shown "package" package]
  | ruleUndocumented rule file | ruleUnowned rule file =>
    [.shown "rule" rule, .shown "file" file.display]
  | topicBuilt topic packages collections =>
    [.literal "topic" topic, .count "packages" packages, .count "collections" collections]
  | topicWritten topic files => [.literal "topic" topic, .count "files" files]
  | generated out files annotations warnings =>
    [.shown "out_dir" out.display, .count "files" files, .count "annotations" annotations,
      .count "warnings" warnings]

end Event

end PolicyPages.Log
