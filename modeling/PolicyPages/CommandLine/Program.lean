import PolicyPages.CommandLine.Arguments
import PolicyPages.CommandLine.Complaint
import PolicyPages.Generation
import PolicyPages.Log.Filter
import PolicyPages.Log.Line
import PolicyPages.Settings.Session

/-!
# The program

What the program does with its arguments, its environment and the files: it loads the settings, makes
the directory of the pages and generates the documentation. The events that pass the filter are
logged; loading the settings comes before there is a filter, so its events never are.
-/

namespace PolicyPages.CommandLine

open Files (Tree)
open Log (Event Filter)

/-- What a run leaves behind: its exit code, what it writes to the standard output, the events it logs
and the complaint it writes to the standard error, and the files. -/
structure Outcome where
  exitCode : Nat
  output : String
  log : List Event
  complaint : String
  files : Tree

/-- The text that tells the version. -/
def versionText : String := "policydoc 0.1.0\n"

/-- The text that tells how the program is used. -/
def usage : String :=
  "Usage: policydoc --adoc <DIR> --rego <DIR>... [--config <FILE>] [--annotations-json <FILE>]\n"

/-- The text that explains the options. -/
def helpText : String :=
  "Generate AsciiDoc policy documentation from Rego annotations\n\n" ++ usage ++
  "\nOptions:\n" ++
  "      --adoc <DIR>               Directory to write the generated pages to\n" ++
  "      --rego <DIR>               Directory of sources to scan; repeat for several roots\n" ++
  "      --config <FILE>            Settings file, .policydoc.json if there is one\n" ++
  "      --annotations-json <FILE>  Also write the extracted annotations as JSON to this file\n" ++
  "  -h, --help                     Print help\n" ++
  "  -V, --version                  Print version\n"

/-- The variable that holds a filter of the log. -/
def filterVariable : String := "RUST_LOG"

/-- The filter of the log: that of the environment if it can be read, and else the level of the
settings. -/
def filterOf (environment : Environment) (settings : Settings) : Filter :=
  match (environment filterVariable).bind Filter.ofText? with
  | some filter => filter
  | none => (Filter.ofText? settings.logging.level).getD [.errorsOnly]

/-- Loads the settings from the file that was named, or from the one that is used otherwise. -/
def configure (arguments : Arguments) (environment : Environment) :
    Action Complaint (Overridden Settings) := do
  match arguments.settings with
  | some path => if !(← Action.files).holdsFile path then throw (.noSettingsFile path)
  | none => pure ()
  ExceptT.adapt (Complaint.settings arguments.settings)
    (Settings.loadFrom (arguments.settings.getD Settings.defaultPath) environment)

/-- The event of an override that was ignored. -/
def ignoredEvent (ignored : IgnoredOverride) : Event :=
  .overrideIgnored ignored.key.name ignored.value ignored.reason.message

/-- Generates the documentation with settings that have been loaded. -/
def generate (arguments : Arguments) (loaded : Overridden Settings) : Action Complaint Unit := do
  Action.log (loaded.ignored.map ignoredEvent)
  Action.createDirectories (.outDirectory arguments.out) arguments.out
  let _ ← ExceptT.adapt Complaint.generation
    (Generation.run loaded.value ⟨arguments.roots, arguments.out, arguments.annotations⟩)

/-- Runs the generator. -/
def runGenerator (arguments : Arguments) (environment : Environment) (files : Tree) : Outcome :=
  match (configure arguments environment).outcome (.start files) with
  | (.error complaint, session) => ⟨1, "", [], complaint.text, session.files⟩
  | (.ok loaded, session) =>
    let filter := filterOf environment loaded.value
    let (result, session) := (generate arguments loaded).outcome (.start session.files)
    let logged := session.events.filter filter.passes
    match result with
    | .ok () => ⟨0, "", logged, "", session.files⟩
    | .error complaint => ⟨1, "", logged, complaint.text, session.files⟩

/-- Runs the program on the words of a command line. -/
def run (words : List String) (environment : Environment) (files : Tree) : Outcome :=
  match Command.ofWords words with
  | .error error => ⟨2, "", [], "error: " ++ error.message ++ "\n\n" ++ usage, files⟩
  | .ok .help => ⟨0, helpText, [], "", files⟩
  | .ok .version => ⟨0, versionText, [], "", files⟩
  | .ok (.generate arguments) => runGenerator arguments environment files

end PolicyPages.CommandLine
