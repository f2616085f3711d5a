import PolicyPages.Annotation.Json
import PolicyPages.Document.Assembly
import PolicyPages.Page.AsciiDoc
import PolicyPages.Registry.Loading
import PolicyPages.Site

/-!
# Generating the documentation

One run from the sources to the pages: the annotations are loaded, listed as JSON if that is asked
for, and made into a document for each topic; then the pages of all documents are written. The first
failure ends the run, and what has been written by then stays.
-/

namespace PolicyPages

/-- What a run reads and writes: the source roots, the directory of the pages, and the file for the
list of annotations, if there shall be one. -/
structure Request where
  roots : List Path
  out : Path
  annotationsFile : Option Path

/-- What a run has done. -/
structure Report where
  written : List Path
  warnings : List LookupWarning
  annotationCount : Nat

/-- The text of a list of annotations. -/
def Registry.listing (registry : Registry) : String :=
  (Json.Value.array (registry.annotations.map Annotation.toJson)).pretty ++ "\n"

/-- Whether every file name is a text, as a list of annotations needs. -/
def Registry.namesAreTexts (registry : Registry) : Bool :=
  registry.annotations.all fun note => note.location.file.text?.isSome

namespace Generation

/-- Writes the list of annotations. -/
def writeListing (registry : Registry) (path : Path) : Action Failure Unit := do
  if !registry.namesAreTexts then throw (.nameNotText path)
  match path.parent? with
  | some parent => Action.createDirectories (.write path) parent
  | none => pure ()
  Action.write (.write path) path registry.listing
  Action.log [.annotationsDumped path registry.annotations.length]

/-- The documents of all topics. -/
def documents (registry : Registry) (membership : Membership) : List Document :=
  Topic.all.map (Document.build registry membership)

/-- Generates the documentation with a renderer. -/
def runWith (renderer : PageRenderer) (settings : Settings) (request : Request) :
    Action Failure Report := do
  let tree ← Action.files
  Action.log (Registry.loadEvents tree settings.discovery request.roots)
  let registry ← Action.ofResult (Registry.load tree settings.discovery request.roots)
  Action.log [.annotationsLoaded registry.modules.length registry.size]
  match request.annotationsFile with
  | some path => writeListing registry path
  | none => pure ()
  let membership := Membership.ofRegistry registry
  Action.log (membership.warnings.map LookupWarning.event)
  Action.log (Topic.all.flatMap (Document.buildEvents registry))
  let written ← (documents registry membership).mapM (Site.writeTopic request.out renderer)
  let report : Report := ⟨written.flatten, membership.warnings, registry.size⟩
  Action.log [.generated request.out report.written.length report.annotationCount
    report.warnings.length]
  return report

/-- Generates the documentation in AsciiDoc. -/
def run (settings : Settings) (request : Request) : Action Failure Report :=
  runWith (AsciiDoc.renderer settings.render.sourceUrl) settings request

end Generation

end PolicyPages
