import PolicyPages.Discovery
import PolicyPages.Registry
import PolicyPages.Source.Module

/-!
# Loading the registry

All modules below the source roots are found first, then read and extracted one by one. The first
module that cannot be read, or that breaks the rules for annotations, ends loading. Nothing is
changed on the way.
-/

namespace PolicyPages

open Files (Tree)

/-- The annotations of a module that was found. They are located by its path below the root. -/
def FoundModule.load (found : FoundModule) (tree : Tree) : Except Failure AnnotatedModule :=
  match tree.read found.path with
  | .error error => .error (.discovery found.path (.file error))
  | .ok content =>
    match Source.annotations found.file content with
    | .error error => .error (.parse error)
    | .ok annotations => .ok ⟨found.root, found.file, annotations⟩

namespace Registry

/-- Adds the annotations of modules in order. -/
def addFound (tree : Tree) : Registry → List FoundModule → Except Failure Registry
  | registry, [] => .ok registry
  | registry, found :: rest => do
    let module ← found.load tree
    addFound tree (registry.insert module) rest

/-- The registry of all modules below the roots. -/
def load (tree : Tree) (settings : DiscoverySettings) (roots : List Path) :
    Except Failure Registry := do
  let found ← Discovery.modules tree settings roots
  addFound tree empty found

/-- The events of adding modules, up to the first that fails. -/
def addEvents (tree : Tree) : Registry → List FoundModule → List Log.Event
  | _, [] => []
  | registry, found :: rest =>
    match found.load tree with
    | .error _ => []
    | .ok module =>
      .moduleLoaded module.file module.annotations.length :: registry.insertEvents module
        ++ addEvents tree (registry.insert module) rest

/-- The events of loading. -/
def loadEvents (tree : Tree) (settings : DiscoverySettings) (roots : List Path) :
    List Log.Event :=
  Discovery.events tree settings roots ++
    match Discovery.modules tree settings roots with
    | .ok found => addEvents tree empty found
    | .error _ => []

end Registry

end PolicyPages
