import PolicyPages.Annotation
import PolicyPages.Proofs.DistinctKeys

/-!
# Which annotations open sections

A path has one section, which the first package annotation with that path opens. `openPaths` are the
paths and `openings` the annotations, both in the order in which they are met. A further annotation
adds one to them, if it is that of a package with a new path (`openings_concat_of_new`), and else
leaves them as they are.

Collections are apart: their annotations open no section.
-/

namespace PolicyPages

namespace Annotation

def packagePath (note : Annotation) : String :=
  note.location.packagePath

theorem isPackage_eq_true_iff {note : Annotation} :
    note.isPackage = true ↔ note.scope = .package := by
  rw [isPackage, decide_eq_true_iff]

theorem isPackage_eq_false_iff {note : Annotation} :
    note.isPackage = false ↔ note.scope = .rule := by
  cases scope : note.scope <;> simp [isPackage, scope]

/-- Whether the annotation is that of a package outside collections. -/
def opensSection (note : Annotation) : Bool :=
  note.isPackage && !note.inCollectionModule

/-- Whether the annotation is that of a rule outside collections. -/
def isDocumentedRule (note : Annotation) : Bool :=
  !note.isPackage && !note.inCollectionModule

/-- Whether the annotation stands for a collection. -/
def opensCollection (note : Annotation) : Bool :=
  note.isPackage && note.inCollectionModule

end Annotation

open Annotation (isDocumentedRule isPackage opensCollection opensSection packagePath)

/-- The paths of annotated packages in the order in which they are met. -/
def openPaths (notes : List Annotation) : List String :=
  ((notes.filter opensSection).map packagePath).eraseDups

/-- The first annotation of the package with a path. -/
def opening? (notes : List Annotation) (path : String) : Option Annotation :=
  (notes.filter opensSection).find? fun note => note.packagePath == path

/-- The annotations that open the sections. -/
def openings (notes : List Annotation) : List Annotation :=
  (openPaths notes).filterMap (opening? notes)

/-! ### Openings -/

section

variable {notes : List Annotation} {note : Annotation} {path : String}

theorem filter_opensSection_concat (notes : List Annotation) (note : Annotation) :
    (notes ++ [note]).filter opensSection =
      notes.filter opensSection ++ if note.opensSection then [note] else [] := by
  rw [List.filter_append, List.filter_singleton, cond_eq_ite]

theorem mem_openPaths : path ∈ openPaths notes ↔
    ∃ package ∈ notes.filter opensSection, package.packagePath = path := by
  rw [openPaths, List.mem_eraseDups, List.mem_map]

theorem openPaths_concat_of_opens (opens : note.opensSection = true) :
    openPaths (notes ++ [note]) =
      if note.packagePath ∈ openPaths notes then openPaths notes
      else openPaths notes ++ [note.packagePath] := by
  rw [openPaths, filter_opensSection_concat, opens, if_pos rfl, List.map_append, List.map_singleton,
    eraseDups_concat]
  simp only [mem_openPaths, List.mem_map]
  rfl

theorem opening?_concat (notes : List Annotation) (note : Annotation) (path : String) :
    opening? (notes ++ [note]) path = (opening? notes path).or
      (if note.opensSection && note.packagePath == path then some note else none) := by
  rw [opening?, filter_opensSection_concat, List.find?_append, opening?]
  cases note.opensSection with
  | false => simp
  | true => cases same : note.packagePath == path <;> simp [same]

theorem isSome_opening?_iff : (opening? notes path).isSome ↔ path ∈ openPaths notes := by
  rw [opening?, List.find?_isSome, mem_openPaths]
  simp only [beq_iff_eq]

theorem packagePath_of_opening? {package : Annotation} (h : opening? notes path = some package) :
    package.packagePath = path := by
  simpa using List.find?_some h

theorem mem_of_mem_openings {package : Annotation} (h : package ∈ openings notes) :
    package ∈ notes ∧ package.opensSection = true := by
  obtain ⟨path, _, found⟩ := List.mem_filterMap.1 h
  exact List.mem_filter.1 (List.mem_of_find?_eq_some found)

/-- The opening of a path that is open stays the same. -/
theorem opening?_concat_of_mem (known : path ∈ openPaths notes) :
    opening? (notes ++ [note]) path = opening? notes path := by
  obtain ⟨package, found⟩ := Option.isSome_iff_exists.1 (isSome_opening?_iff.2 known)
  rw [opening?_concat, found, Option.some_or]

theorem filterMap_opening?_concat : (openPaths notes).filterMap (opening? (notes ++ [note])) =
    openings notes :=
  List.filterMap_congr fun _ known => opening?_concat_of_mem known

theorem openings_concat_of_new (opens : note.opensSection = true)
    (new : note.packagePath ∉ openPaths notes) :
    openings (notes ++ [note]) = openings notes ++ [note] := by
  have none : opening? notes note.packagePath = none := by
    rw [← Option.not_isSome_iff_eq_none, isSome_opening?_iff]
    exact new
  have own : opening? (notes ++ [note]) note.packagePath = some note := by
    rw [opening?_concat, none, opens]
    simp
  rw [openings, openPaths_concat_of_opens opens, if_neg new, List.filterMap_append,
    filterMap_opening?_concat, List.filterMap_cons_some own, List.filterMap_nil]

theorem openings_concat_of_known (opens : note.opensSection = true)
    (known : note.packagePath ∈ openPaths notes) :
    openings (notes ++ [note]) = openings notes := by
  rw [openings, openPaths_concat_of_opens opens, if_pos known, filterMap_opening?_concat]

theorem openings_concat_of_not_opens (other : note.opensSection = false) :
    openPaths (notes ++ [note]) = openPaths notes ∧
      openings (notes ++ [note]) = openings notes := by
  have paths : openPaths (notes ++ [note]) = openPaths notes := by
    rw [openPaths, filter_opensSection_concat, other]
    simp [openPaths]
  exact ⟨paths, by rw [openings, paths, filterMap_opening?_concat]⟩

theorem map_packagePath_openings (notes : List Annotation) :
    (openings notes).map packagePath = openPaths notes := by
  have found : ∀ path ∈ openPaths notes,
      (opening? notes path).map packagePath = some path := by
    intro path known
    obtain ⟨package, found⟩ := Option.isSome_iff_exists.1 (isSome_opening?_iff.2 known)
    rw [found, Option.map_some, packagePath_of_opening? found]
  rw [openings, List.map_filterMap, List.filterMap_congr found, List.filterMap_some]

end

end PolicyPages
