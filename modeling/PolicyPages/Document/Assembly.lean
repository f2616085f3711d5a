import PolicyPages.Document.Membership

/-!
# Assembling the document of a topic

The modules of the topic are taken in order, and in each its annotations. The annotation of a package
opens the section of its path, unless one is open, and owns the rules after it in its module. A rule
before any package annotation of its module belongs to the section of its own path, if that is open;
else it is left out. In a module that defines a collection, the annotation of the package stands for
the collection, and rules are not documented.

At the end all is sorted by title; equal titles keep the order in which they were met.
-/

namespace PolicyPages

/-- A document that is being assembled. Sections are kept with the path that opened them. -/
structure Assembly where
  sections : List (String × Section)
  /-- The path of the section that owns the next rule of the module at hand. -/
  current : Option String
  collections : List Annotation
  events : List Log.Event

namespace Assembly

/-- Nothing has been met yet. -/
def empty : Assembly := ⟨[], none, [], []⟩

/-- Whether the section of a path is open. -/
def isOpen (assembly : Assembly) (path : String) : Bool :=
  assembly.sections.any (·.1 == path)

/-- Opens the section of a package, unless that of its path is open, and makes it the one that owns
the next rules. -/
def openSection (assembly : Assembly) (package : Annotation) : Assembly :=
  let path := package.location.packagePath
  if assembly.isOpen path then { assembly with current := some path }
  else
    { assembly with
      sections := assembly.sections ++ [(path, ⟨package, []⟩)]
      current := some path }

/-- Adds a rule to the section of a path. -/
def addRule (assembly : Assembly) (path : String) (rule : Annotation) : Assembly :=
  { assembly with
    sections := assembly.sections.map fun entry =>
      if entry.1 = path then (entry.1, { entry.2 with rules := entry.2.rules ++ [rule] })
      else entry }

/-- The path of the section that owns a rule. -/
def owner? (assembly : Assembly) (rule : Annotation) : Option String :=
  match assembly.current with
  | some path => some path
  | none =>
    let path := rule.location.packagePath
    if assembly.isOpen path then some path else none

/-- Takes the next annotation of a module. -/
def add (file : Path) (assembly : Assembly) (note : Annotation) : Assembly :=
  match note.inCollectionModule, note.scope with
  | true, .package => { assembly with collections := assembly.collections ++ [note] }
  | true, .rule =>
    { assembly with events := assembly.events ++ [.ruleUndocumented note.title file] }
  | false, .package => assembly.openSection note
  | false, .rule =>
    match assembly.owner? note with
    | some path => assembly.addRule path note
    | none => { assembly with events := assembly.events ++ [.ruleUnowned note.title file] }

/-- Takes the next module. -/
def addModule (assembly : Assembly) (module : AnnotatedModule) : Assembly :=
  module.annotations.foldl (add module.file) { assembly with current := none }

/-- Takes all modules of a topic. -/
def ofTopic (registry : Registry) (topic : Topic) : Assembly :=
  (registry.modules.filter fun module => topic.contains module.file).foldl addModule empty

end Assembly

/-- The rules of a section in order. -/
def Section.sorted (part : Section) : Section :=
  { part with rules := part.rules.mergeSort fun a b => a.title ≤ b.title }

namespace Document

/-- The document that has been assembled. -/
def ofAssembly (membership : Membership) (topic : Topic) (assembly : Assembly) : Document where
  topic := topic
  packages :=
    (assembly.sections.map fun entry => entry.2.sorted).mergeSort fun a b =>
      a.package.title ≤ b.package.title
  collections :=
    (assembly.collections.map fun note => (⟨note, membership.members note.title⟩ : Listing)).mergeSort
      fun a b => a.collection.title ≤ b.collection.title

/-- The document of a topic. -/
def build (registry : Registry) (membership : Membership) (topic : Topic) : Document :=
  ofAssembly membership topic (.ofTopic registry topic)

/-- The events of building the document of a topic. -/
def buildEvents (registry : Registry) (topic : Topic) : List Log.Event :=
  let assembly := Assembly.ofTopic registry topic
  assembly.events ++
    [.topicBuilt topic.qualifier assembly.sections.length assembly.collections.length]

end Document

end PolicyPages
