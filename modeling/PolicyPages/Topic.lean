import PolicyPages.Path

/-!
# Topics

A topic is a part of the documentation. It selects the modules of one source directory, by whole
path components: `policy/task` does not claim `policy/task_bundle`.
-/

namespace PolicyPages

/-- A part of the documentation: the name it is shown under, the identifier that stands in source
directories and file names, and the text that introduces it. -/
structure Topic where
  name : String
  qualifier : String
  description : String
deriving DecidableEq, Repr

namespace Topic

/-- The directory of the topic's modules. -/
def directory (topic : Topic) : Path :=
  (Path.ofText "policy").join (.ofText topic.qualifier)

/-- Whether a module belongs to the topic, by its path below its root. -/
def contains (topic : Topic) (file : Path) : Bool :=
  file.startsWith topic.directory

/-- The topics of the documentation, in the order in which they are generated. -/
def all : List Topic :=
  [ { name := "Release"
      qualifier := "release"
      description := "These rules are applied to pipeline run attestations associated with " ++
        "container images built by Konflux." },
    { name := "Pipeline"
      qualifier := "pipeline"
      description := "These rules are applied to Tekton pipeline definitions." },
    { name := "Task"
      qualifier := "task"
      description := "These rules are applied to Tekton task definitions." },
    { name := "Build Task"
      qualifier := "build_task"
      description := "These rules are applied to Tekton build task definitions." },
    { name := "StepAction"
      qualifier := "stepaction"
      description := "These rules are applied to Tekton StepAction definitions." } ]

/-- The first topic that a module belongs to. -/
def of? (file : Path) : Option Topic :=
  all.find? (·.contains file)

end Topic

end PolicyPages
