import PolicyPages.Proofs.Document.Openings
import PolicyPages.Registry

/-!
# What a registry holds

A registry built from modules holds their annotations in order (`Registry.annotations_ofModules`),
and its index gives for a path the package annotation that a search through them finds first
(`Registry.package?_ofModules`).

The index holds positions. Indexing one annotation adds its position for its path, if that is a
package's and has none yet (`Indexed.index`), and a module that is appended moves no annotation
(`note?_append`); so every module that is added keeps the index right (`IsIndexed.insert`).
-/

namespace PolicyPages

open Annotation (isPackage packagePath)

/-- The first package annotation of a path. -/
def firstPackage? (notes : List Annotation) (path : String) : Option Annotation :=
  notes.find? fun note => note.isPackage && note.packagePath == path

section

variable {notes : List Annotation} {path : String}

theorem isSome_firstPackage?_iff : (firstPackage? notes path).isSome ↔
    ∃ package ∈ notes, package.isPackage = true ∧ package.packagePath = path := by
  rw [firstPackage?, List.find?_isSome]
  simp only [Bool.and_eq_true, beq_iff_eq]

theorem firstPackage?_concat (notes : List Annotation) (note : Annotation) (path : String) :
    firstPackage? (notes ++ [note]) path =
      (firstPackage? notes path).or
        (if note.isPackage && note.packagePath == path then some note else none) := by
  rw [firstPackage?, List.find?_append, List.find?_singleton]
  rfl

end

namespace Registry

theorem get?_index (module : Nat) (packages : Dictionary Position) (note : Annotation)
    (number : Nat) (path : String) :
    Dictionary.get? (index module packages (note, number)) path =
      (Dictionary.get? packages path).or
        (if note.isPackage && note.packagePath == path then some ⟨module, number⟩ else none) := by
  unfold index
  dsimp only
  cases isPackage : note.isPackage with
  | false => simp
  | true =>
    cases known : Dictionary.get? packages note.location.packagePath with
    | some position =>
      by_cases same : note.packagePath = path
      · have found : Dictionary.get? packages path = some position := same ▸ known
        simp [found]
      · simp [same]
    | none =>
      simp only [Option.isNone_none, Bool.and_self, if_true, Dictionary.get?_insert]
      by_cases same : note.packagePath = path
      · have unknown : Dictionary.get? packages path = none := same ▸ known
        have here : note.location.packagePath = path := same
        simp [here, same, unknown]
      · have elsewhere : note.location.packagePath ≠ path := same
        simp [elsewhere, same]

/-- The index holds for each path the position of the package annotation that a search through the
annotations finds first, and holds nothing for a path that has none. -/
def Indexed (packages : Dictionary Position) (modules : List AnnotatedModule)
    (notes : List Annotation) : Prop :=
  ∀ path, (Dictionary.get? packages path).map (Position.note? modules) =
    (firstPackage? notes path).map some

section

variable {packages : Dictionary Position} {modules : List AnnotatedModule}
  {notes : List Annotation} {note : Annotation} {position : Position} {path : String}

/-- Modules that are appended move no annotation. -/
theorem note?_append (there : position.note? modules = some note)
    (more : List AnnotatedModule) : position.note? (modules ++ more) = some note := by
  obtain ⟨module, found, inModule⟩ := Option.bind_eq_some_iff.1 there
  have before : position.module < modules.length := (List.getElem?_eq_some_iff.1 found).1
  rw [Position.note?, List.getElem?_append_left before, found]
  exact inModule

/-- The entries of a module are where its numbers say. -/
theorem note?_of_mem_zipIdx {module : AnnotatedModule} {entry : Entry}
    (mem : entry ∈ module.annotations.zipIdx) :
    Position.note? (modules ++ [module]) ⟨modules.length, entry.2⟩ = some entry.1 := by
  rw [Position.note?, List.getElem?_concat_length]
  exact List.mem_zipIdx_iff_getElem?.1 mem

namespace Indexed

/-- What the index gives is what a search finds. -/
theorem bind_eq (h : Indexed packages modules notes) (path : String) :
    (Dictionary.get? packages path).bind (Position.note? modules) =
      firstPackage? notes path := by
  have joined := congrArg (Option.bind · id) (h path)
  rw [Option.bind_map, Option.bind_map, Function.id_comp, Function.id_comp] at joined
  exact joined.trans (Option.bind_fun_some _)

theorem append (h : Indexed packages modules notes) (more : List AnnotatedModule) :
    Indexed packages (modules ++ more) notes := by
  intro path
  have before := h path
  cases found : Dictionary.get? packages path with
  | none =>
    rw [found] at before
    exact before
  | some position =>
    rw [found, Option.map_some, eq_comm, Option.map_eq_some_iff] at before
    obtain ⟨note, first, there⟩ := before
    rw [first, Option.map_some, Option.map_some, note?_append there.symm]

/-- One more annotation is indexed only if it is the first one of its path. -/
theorem index {module number : Nat} (h : Indexed packages modules notes)
    (there : Position.note? modules ⟨module, number⟩ = some note) :
    Indexed (Registry.index module packages (note, number)) modules (notes ++ [note]) := by
  intro path
  rw [get?_index, firstPackage?_concat, Option.map_or, Option.map_or, h path]
  congr 1
  split
  · exact congrArg some there
  · rfl

theorem foldl_index {module : Nat} {entries : List Entry}
    (h : Indexed packages modules notes)
    (there : ∀ entry ∈ entries,
      Position.note? modules ⟨module, entry.2⟩ = some entry.1) :
    Indexed (entries.foldl (Registry.index module) packages) modules
      (notes ++ entries.map Prod.fst) := by
  induction entries generalizing packages notes with
  | nil => simpa using h
  | cons entry rest ih =>
    obtain ⟨first, later⟩ := List.forall_mem_cons.1 there
    have indexed := ih (h.index first) later
    rwa [List.append_assoc] at indexed

end Indexed

end

theorem annotations_insert (registry : Registry) (module : AnnotatedModule) :
    (registry.insert module).annotations = registry.annotations ++ module.annotations := by
  unfold insert
  split
  · rename_i empty
    rw [List.isEmpty_iff.1 empty, List.append_nil]
  · rw [annotations, List.flatMap_append, List.flatMap_singleton]
    rfl

/-- The index of the registry agrees with a search through its annotations. -/
def IsIndexed (registry : Registry) : Prop :=
  Indexed registry.packages registry.modules registry.annotations

theorem isIndexed_empty : empty.IsIndexed :=
  fun _ => rfl

/-- Adding a module keeps the index right. -/
theorem IsIndexed.insert {registry : Registry} (h : registry.IsIndexed) (module : AnnotatedModule) :
    (registry.insert module).IsIndexed := by
  unfold IsIndexed
  rw [annotations_insert]
  unfold Registry.insert
  split
  · rename_i empty
    rw [List.isEmpty_iff.1 empty, List.append_nil]
    exact h
  · have indexed := (h.append [module]).foldl_index
      fun _ mem => note?_of_mem_zipIdx mem
    rwa [List.zipIdx_map_fst] at indexed

theorem isIndexed_foldl_insert {registry : Registry} (h : registry.IsIndexed)
    (modules : List AnnotatedModule) : (modules.foldl Registry.insert registry).IsIndexed := by
  induction modules generalizing registry with
  | nil => exact h
  | cons module rest ih => exact ih (h.insert module)

theorem annotations_foldl_insert (registry : Registry) (modules : List AnnotatedModule) :
    (modules.foldl insert registry).annotations =
      registry.annotations ++ modules.flatMap AnnotatedModule.annotations := by
  induction modules generalizing registry with
  | nil => simp
  | cons module rest ih =>
    rw [List.foldl_cons, ih, annotations_insert, List.flatMap_cons, List.append_assoc]

/-- Leaving out modules without annotations leaves out no annotation. -/
theorem annotations_ofModules (modules : List AnnotatedModule) :
    (ofModules modules).annotations = modules.flatMap AnnotatedModule.annotations :=
  annotations_foldl_insert empty modules

/-- The index of a registry agrees with a search through its annotations. -/
theorem package?_ofModules (modules : List AnnotatedModule) (path : String) :
    (ofModules modules).package? path =
      firstPackage? (modules.flatMap AnnotatedModule.annotations) path := by
  have indexed : (ofModules modules).IsIndexed := isIndexed_foldl_insert isIndexed_empty modules
  rw [← annotations_ofModules]
  exact indexed.bind_eq path

theorem foldl_length_annotations (count : Nat) (modules : List AnnotatedModule) :
    modules.foldl (fun count module => count + module.annotations.length) count =
      count + (modules.flatMap AnnotatedModule.annotations).length := by
  induction modules generalizing count with
  | nil => rfl
  | cons module rest ih =>
    rw [List.foldl_cons, ih, List.flatMap_cons, List.length_append, Nat.add_assoc]

theorem size_eq_length (registry : Registry) : registry.size = registry.annotations.length := by
  rw [size, foldl_length_annotations, Nat.zero_add]
  rfl

/-- A registry is empty just when it has no annotations. -/
theorem isEmpty_iff_size_eq_zero (modules : List AnnotatedModule) :
    (ofModules modules).isEmpty = true ↔ (ofModules modules).size = 0 := by
  rw [isEmpty, size_eq_length, List.isEmpty_iff, List.length_eq_zero_iff, annotations,
    List.flatMap_eq_nil_iff]
  constructor
  · intro nothing
    simp [nothing]
  · intro none
    rw [List.eq_nil_iff_forall_not_mem]
    intro module mem
    have some := mem
    rw [modules_ofModules, List.mem_filter] at some
    simp [none module mem] at some

/-- Whatever modules are added, a registry keeps those with annotations in order, and looks up a
package as a search through all its annotations does. -/
theorem lookup_agrees_with_search (modules : List AnnotatedModule) :
    let registry := ofModules modules
    (∀ path, registry.package? path = registry.annotations.find? fun note =>
      note.isPackage && note.location.packagePath == path) ∧
    registry.modules = modules.filter (fun module => !module.annotations.isEmpty) ∧
    registry.annotations = registry.modules.flatMap AnnotatedModule.annotations ∧
    registry.annotations = modules.flatMap AnnotatedModule.annotations ∧
    registry.size = registry.annotations.length ∧
    (registry.isEmpty = true ↔ registry.size = 0) := by
  refine ⟨fun path => ?_, modules_ofModules modules, rfl, annotations_ofModules modules,
    size_eq_length _, isEmpty_iff_size_eq_zero modules⟩
  rw [package?_ofModules, annotations_ofModules]
  rfl

end Registry

end PolicyPages
