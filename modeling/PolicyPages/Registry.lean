import PolicyPages.Annotation
import PolicyPages.Log.Event

/-!
# The registry of annotations

All annotations of one run, module by module in the order in which the modules are met, with an index
of the package annotations by package path. Modules that share a package path are not merged here.

The index holds positions. They are settled while a module is added and stay as they are, since modules
are only appended. The first package annotation of a path is the one the index gives:
`Registry.package?` finds what a search through `Registry.annotations` would find first.
-/

namespace PolicyPages

/-- The annotations of one module: the root it was found under, its path below the root, and its
annotations in the order of the source. -/
structure AnnotatedModule where
  root : Path
  file : Path
  annotations : List Annotation

/-- The dotted package path of a module with annotations. -/
def AnnotatedModule.packagePath? (module : AnnotatedModule) : Option String :=
  module.annotations.head?.map (·.location.packagePath)

/-- Where an annotation is: the number of its module, and its own number in the module. -/
structure Registry.Position where
  module : Nat
  entry : Nat
deriving DecidableEq, Repr

/-- The annotation at a position in modules. -/
def Registry.Position.note? (modules : List AnnotatedModule) (position : Position) :
    Option Annotation :=
  modules[position.module]?.bind fun module => module.annotations[position.entry]?

/-- An annotation with its number in its module. -/
abbrev Registry.Entry := Annotation × Nat

/-- All annotations of one run. -/
structure Registry where
  modules : List AnnotatedModule
  packages : Dictionary Registry.Position

namespace Registry

/-- No annotations. -/
def empty : Registry := ⟨[], []⟩

/-- Indexes an annotation at its place in a module, if it is that of a package whose path has none
yet. -/
def index (module : Nat) (packages : Dictionary Position) (entry : Entry) : Dictionary Position :=
  let path := entry.1.location.packagePath
  if entry.1.isPackage && (Dictionary.get? packages path).isNone then
    Dictionary.insert packages path ⟨module, entry.2⟩
  else packages

/-- Adds the annotations of a module. A module without annotations is left out. -/
def insert (registry : Registry) (module : AnnotatedModule) : Registry :=
  if module.annotations.isEmpty then registry
  else
    { modules := registry.modules ++ [module]
      packages :=
        module.annotations.zipIdx.foldl (index registry.modules.length) registry.packages }

/-- The events of indexing annotations: one for each package whose path is known already. -/
def indexEvents (file : Path) (module : Nat) :
    Dictionary Position → List Entry → List Log.Event
  | _, [] => []
  | packages, entry :: rest =>
    let path := entry.1.location.packagePath
    let known := entry.1.isPackage && (Dictionary.get? packages path).isSome
    let events := indexEvents file module (index module packages entry) rest
    if known then .packageKnown path file :: events else events

/-- The events of adding a module. -/
def insertEvents (registry : Registry) (module : AnnotatedModule) : List Log.Event :=
  indexEvents module.file registry.modules.length registry.packages module.annotations.zipIdx

/-- The registry of several modules, added in order. -/
def ofModules (modules : List AnnotatedModule) : Registry :=
  modules.foldl insert empty

theorem modules_foldl_insert (registry : Registry) (modules : List AnnotatedModule) :
    (modules.foldl insert registry).modules =
      registry.modules ++ modules.filter (!·.annotations.isEmpty) := by
  induction modules generalizing registry with
  | nil => simp
  | cons module rest ih =>
    rw [List.foldl_cons, ih]
    cases empty : module.annotations.isEmpty <;> simp [insert, empty]

/-- A registry keeps the modules that have annotations. -/
theorem modules_ofModules (modules : List AnnotatedModule) :
    (ofModules modules).modules = modules.filter (!·.annotations.isEmpty) :=
  modules_foldl_insert empty modules

/-- All annotations in the order in which they were met. -/
def annotations (registry : Registry) : List Annotation :=
  registry.modules.flatMap AnnotatedModule.annotations

/-- The package annotation of a dotted package path. -/
def package? (registry : Registry) (packagePath : String) : Option Annotation :=
  (Dictionary.get? registry.packages packagePath).bind (Position.note? registry.modules)

/-- How many annotations there are, counted module by module. -/
def size (registry : Registry) : Nat :=
  registry.modules.foldl (fun count module => count + module.annotations.length) 0

/-- Whether there are no annotations. -/
def isEmpty (registry : Registry) : Bool :=
  registry.modules.isEmpty

end Registry

end PolicyPages
