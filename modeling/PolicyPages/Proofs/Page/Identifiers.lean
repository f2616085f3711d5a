import Mathlib.Data.List.Forall2
import Mathlib.Data.Option.Basic
import PolicyPages.Proofs.Page.Contents
import PolicyPages.Proofs.Page.Rendering

/-!
# The identifiers of an overview

An overview places an identifier for each of its sections, for each collection and for the row of each
package (`overviewIds`, `PlacesIds`). Collections and packages get theirs by one rule, from the last
segments of their target paths, and no section has such an identifier. So the identifiers differ just when
the last segments of collections and packages do, taken together (`overviewIds_nodup_iff`), and then the
link to a collection in the navigation has one target.

It is not enough that the collections differ from each other and the packages do: a collection and a
package of one topic may end in the same segment (`not_every_overviewIds_nodup`).
-/

namespace PolicyPages

open Annotation (IsTargetedPackage anchor packageAnchor packageName)

/-- The last segments of the target paths of the collections and of the packages. -/
def Document.lastSegments (document : Document) : List (Option String) :=
  (document.collections.map fun listing => listing.collection.targetPath.getLast?) ++
    document.packages.map fun part => part.package.targetPath.getLast?

namespace AsciiDoc

/-- The identifiers that an overview places, in their order: one for the section on collections and one
for each collection, one for the section on packages and one for the row of each package. -/
def overviewIds (document : Document) : Except ContractViolation (List String) := do
  let collections ← document.collections.mapM fun listing => listing.collection.anchor
  let packages ← document.packages.mapM fun part => part.package.anchor
  return headed collectionsId collections ++ headed packagesId packages

/-- The line gives a block or a row the identifier. -/
def Places (id line : String) : Prop :=
  line = blockId id ∨ ∃ rest, line = "| " ++ blockId id ++ rest

/-- These are the identifiers of the overview: its lines place them in this order, and a reader finds
no others unless the texts of the document bring them in. -/
structure PlacesIds (document : Document) (ids : List String) : Prop where
  overviewIds_eq : overviewIds document = .ok ids
  placed : ∀ lines, overviewLines document = .ok lines → ids.SublistForall₂ Places lines
  found : document.PlainTexts → ∀ sourceUrl text,
    (renderer sourceUrl).overview document = .ok text → placedIds text = ids

/-! ### Placing identifiers -/

section

variable {document : Document} {lines : Lines} {id : String} {ids : List String}

theorem sublistForall₂_append {α β : Type} {R : α → β → Prop} {xs xs' : List α} {ys ys' : List β}
    (h : xs.SublistForall₂ R ys) (h' : xs'.SublistForall₂ R ys') :
    (xs ++ xs').SublistForall₂ R (ys ++ ys') := by
  obtain ⟨zs, each, within⟩ := List.sublistForall₂_iff.1 h
  obtain ⟨zs', each', within'⟩ := List.sublistForall₂_iff.1 h'
  exact List.sublistForall₂_iff.2 ⟨zs ++ zs', List.rel_append each each', within.append within'⟩

theorem sublistForall₂_flatten {α β : Type} {R : α → β → Prop} {xs : List α} {blocks : List (List β)}
    (each : List.Forall₂ (fun x block => [x].SublistForall₂ R block) xs blocks) :
    xs.SublistForall₂ R blocks.flatten := by
  induction each with
  | nil => exact .nil
  | cons first _ ih => exact sublistForall₂_append first ih

theorem placed_cons (id : String) (rest : Lines) : [id].SublistForall₂ Places (blockId id :: rest) :=
  .cons (.inl rfl) .nil

theorem placed_collectionLines {listing : Listing} (made : collectionLines listing = .ok lines) :
    ∃ id, listing.collection.anchor = .ok id ∧ [id].SublistForall₂ Places lines := by
  unfold collectionLines at made
  obtain ⟨id, anchored, made⟩ := bind_eq_ok_iff.1 made
  obtain ⟨members, listed, made⟩ := bind_eq_ok_iff.1 made
  obtain rfl := Except.ok.inj made
  exact ⟨id, anchored, placed_cons id _⟩

theorem placed_packageRow {part : Section} {qualifier : String}
    (made : packageRow qualifier part = .ok lines) :
    ∃ id, part.package.anchor = .ok id ∧ [id].SublistForall₂ Places lines := by
  unfold packageRow at made
  obtain ⟨name, named, made⟩ := bind_eq_ok_iff.1 made
  obtain ⟨id, anchored, made⟩ := bind_eq_ok_iff.1 made
  obtain rfl := Except.ok.inj made
  exact ⟨id, anchored, .cons (.inr ⟨_, rfl⟩) .nil⟩

/-- A section with its blocks, which is left out if there are none. -/
theorem placed_headed {blocks : List Lines} {rest : Lines}
    (each : List.Forall₂ (fun id block => [id].SublistForall₂ Places block) ids blocks)
    (within : blocks.flatten.Sublist rest) (id : String) :
    (headed id ids).SublistForall₂ Places (if blocks.isEmpty then [] else blockId id :: rest) := by
  have inRest : ids.SublistForall₂ Places rest := by
    obtain ⟨placing, each, inBlocks⟩ := List.sublistForall₂_iff.1 (sublistForall₂_flatten each)
    exact List.sublistForall₂_iff.2 ⟨placing, each, inBlocks.trans within⟩
  cases each with
  | nil => exact .nil
  | cons _ _ => exact .cons (.inl rfl) inRest

theorem placed_overviewLines (listed : overviewIds document = .ok ids)
    (made : overviewLines document = .ok lines) : ids.SublistForall₂ Places lines := by
  unfold overviewIds at listed
  obtain ⟨collectionIds, anchored, listed⟩ := bind_eq_ok_iff.1 listed
  obtain ⟨rowIds, anchoredRows, listed⟩ := bind_eq_ok_iff.1 listed
  obtain rfl := Except.ok.inj listed
  unfold overviewLines at made
  obtain ⟨blocks, madeBlocks, made⟩ := bind_eq_ok_iff.1 made
  obtain ⟨table, madeTable, made⟩ := bind_eq_ok_iff.1 made
  obtain rfl := Except.ok.inj made
  obtain ⟨ids, anchored', eachBlock⟩ := exists_mapM_eq_ok_of_mapM_eq_ok
    (fun _ _ _ => placed_collectionLines) madeBlocks
  obtain ⟨ids', anchoredRows', eachRow⟩ := exists_mapM_eq_ok_of_mapM_eq_ok
    (fun _ _ _ => placed_packageRow) madeTable
  obtain rfl := Except.ok.inj (anchored.symm.trans anchored')
  obtain rfl := Except.ok.inj (anchoredRows.symm.trans anchoredRows')
  refine sublistForall₂_append (sublistForall₂_append .nil (placed_headed eachBlock ?_ _))
    (placed_headed eachRow ?_ _)
  · exact List.sublist_append_right _ _
  · exact (List.sublist_append_right _ _).trans (List.sublist_append_left _ _)

theorem placesIds (listed : overviewIds document = .ok ids) : PlacesIds document ids where
  overviewIds_eq := listed
  placed _ made := placed_overviewLines listed made
  found plain sourceUrl text rendered := by
    obtain ⟨lines, made, rfl⟩ := page_eq_ok_iff.1 rendered
    obtain ⟨collectionIds, rowIds, anchored, anchoredRows, placed⟩ :=
      placedIds_overviewLines plain made
    rw [overviewIds, anchored, anchoredRows] at listed
    rw [placed, Except.ok.inj listed]

end

/-! ### Identifiers and last segments -/

section

variable {document : Document} {ids : List String}

/-- Packages with target paths have identifiers, made of their last segments. -/
theorem exists_mapM_anchor_eq_ok {α : Type} {of : α → Annotation} {xs : List α}
    (targeted : ∀ x ∈ xs, (of x).IsTargetedPackage) :
    ∃ names : List String, xs.map (fun x => (of x).targetPath.getLast?) = names.map some ∧
      xs.mapM (fun x => (of x).anchor) = .ok (names.map (· ++ "_package")) := by
  induction xs with
  | nil => exact ⟨[], rfl, rfl⟩
  | cons x rest ih =>
    obtain ⟨⟨scope, nonempty⟩, later⟩ := List.forall_mem_cons.1 targeted
    obtain ⟨names, lasts, anchored⟩ := ih later
    obtain ⟨name, last⟩ : ∃ name, (of x).targetPath.getLast? = some name :=
      ⟨_, List.getLast?_eq_some_getLast nonempty⟩
    have first : (of x).anchor = .ok (name ++ "_package") := by
      rw [anchor, scope]
      simp only [packageAnchor, packageName, last, Except.map]
    exact ⟨name :: names, by rw [List.map_cons, last, lasts, List.map_cons],
      mapM_eq_ok_iff.2 (.cons first (mapM_eq_ok_iff.1 anchored))⟩

theorem nodup_headed_append_iff {α : Type} {first : α} {rest others : List α}
    (free : first ∉ rest) (free' : first ∉ others) :
    (headed first rest ++ others).Nodup ↔ (rest ++ others).Nodup := by
  cases rest with
  | nil => rfl
  | cons next later =>
    have apart : first ∉ next :: later ++ others := by
      rw [List.mem_append]
      exact not_or.2 ⟨free, free'⟩
    exact List.nodup_cons.trans (and_iff_right apart)

theorem notMem_headed {α : Type} {first x : α} {rest : List α} (apart : x ≠ first)
    (free : x ∉ rest) : x ∉ headed first rest := by
  cases rest with
  | nil => exact List.not_mem_nil
  | cons next later => exact List.not_mem_cons_of_ne_of_not_mem apart free

/-- The heads of the two sections leave it open whether identifiers are repeated. -/
theorem nodup_sections_iff {xs ys : List String} (free : ∀ id ∈ xs, id ∉ sectionIds)
    (free' : ∀ id ∈ ys, id ∉ sectionIds) :
    (headed collectionsId xs ++ headed packagesId ys).Nodup ↔ (xs ++ ys).Nodup := by
  have noSection {ids : List String} (free : ∀ id ∈ ids, id ∉ sectionIds) :
      collectionsId ∉ ids ∧ packagesId ∉ ids :=
    ⟨fun mem => free _ mem (by decide), fun mem => free _ mem (by decide)⟩
  calc (headed collectionsId xs ++ headed packagesId ys).Nodup
    _ ↔ (xs ++ headed packagesId ys).Nodup :=
      nodup_headed_append_iff (noSection free).1 (notMem_headed (by decide) (noSection free').1)
    _ ↔ (headed packagesId ys ++ xs).Nodup := List.nodup_append_comm
    _ ↔ (ys ++ xs).Nodup := nodup_headed_append_iff (noSection free').2 (noSection free).2
    _ ↔ (xs ++ ys).Nodup := List.nodup_append_comm

/-- The identifiers of an overview differ just when the last segments do. -/
theorem nodup_iff_lastSegments (targeted : document.Targeted) :
    ∃ ids, overviewIds document = .ok ids ∧ (ids.Nodup ↔ document.lastSegments.Nodup) := by
  obtain ⟨names, lasts, anchored⟩ := exists_mapM_anchor_eq_ok targeted.collections
  obtain ⟨names', lasts', anchoredRows⟩ := exists_mapM_anchor_eq_ok targeted.packages
  have naming : Function.Injective fun name => name ++ "_package" :=
    fun _ _ => (String.append_left_inj "_package").1
  refine ⟨_, by rw [overviewIds, anchored, anchoredRows]; rfl, ?_⟩
  rw [nodup_sections_iff (notMem_sectionIds_of_mapM anchored) (notMem_sectionIds_of_mapM anchoredRows),
    ← List.map_append, List.nodup_map_iff naming, Document.lastSegments, lasts, lasts',
    ← List.map_append, List.nodup_map_iff (Option.some_injective String)]

/-- The identifier of a collection is one of those that are placed. -/
theorem mem_overviewIds_of_mem (listed : overviewIds document = .ok ids) {listing : Listing}
    (mem : listing ∈ document.collections) : ∃ id, listing.collection.anchor = .ok id ∧ id ∈ ids := by
  unfold overviewIds at listed
  obtain ⟨collectionIds, anchored, listed⟩ := bind_eq_ok_iff.1 listed
  obtain ⟨rowIds, anchoredRows, listed⟩ := bind_eq_ok_iff.1 listed
  obtain rfl := Except.ok.inj listed
  obtain ⟨id, inIds, anchoredListing⟩ := exists_mem_of_mapM_eq_ok anchored mem
  exact ⟨id, anchoredListing, List.mem_append_left _ (mem_headed_of_mem inIds)⟩

end

/-- The identifiers that an overview places differ just when the last segments of its collections and
packages do. Then each collection is linked by an identifier that is placed once. -/
theorem overviewIds_nodup_iff {modules : List AnnotatedModule}
    (extracted : ∀ module ∈ modules, module.IsExtracted) (topic : Topic) :
    let document := Document.build (.ofModules modules) (.ofRegistry (.ofModules modules)) topic
    ∃ ids, PlacesIds document ids ∧ (ids.Nodup ↔ document.lastSegments.Nodup) ∧
      (document.lastSegments.Nodup → ∀ listing ∈ document.collections, ∃ id,
        (∀ overview, navCollection overview listing =
          .ok ("*** " ++ link (overview ++ "#" ++ id) listing.collection.title)) ∧
        ids.count id = 1) := by
  intro document
  obtain ⟨ids, listed, nodup⟩ := nodup_iff_lastSegments (targeted_build extracted topic)
  refine ⟨ids, placesIds listed, nodup, fun apart listing mem => ?_⟩
  obtain ⟨id, anchored, placed⟩ := mem_overviewIds_of_mem listed mem
  refine ⟨id, fun overview => ?_, List.count_eq_one_of_mem (nodup.2 apart) placed⟩
  rw [navCollection, anchored]
  rfl

/-- The modules of a package and of a collection, in the directory of one topic. -/
def overviewModules (package collection : String) : List AnnotatedModule :=
  [ ("policy/release/p.rego", "# METADATA\n# title: P\npackage policy.release." ++ package ++ "\n"),
    ("policy/release/collection/c.rego",
      "# METADATA\n# title: C\npackage policy.release.collection." ++ collection ++ "\n")
  ].filterMap fun entry => AnnotatedModule.ofText? (.ofText entry.1) entry.2

theorem isExtracted_of_mem_overviewModules {package collection : String} :
    ∀ module ∈ overviewModules package collection, module.IsExtracted := by
  intro module mem
  obtain ⟨entry, _, accepted⟩ := List.mem_filterMap.1 mem
  exact (AnnotatedModule.isExtractedInPlace_of_ofText? accepted).isExtracted

/-- The overview of the topic with a package and a collection is rendered and read. -/
theorem overviewIds_nodup_iff_sample :
    let modules := overviewModules "signed" "minimal"
    (∀ module ∈ modules, module.IsExtracted) ∧ ∃ topic ∈ Topic.all,
      let document := Document.build (.ofModules modules) (.ofRegistry (.ofModules modules)) topic
      document.lastSegments.Nodup ∧ document.collections.length = 1 ∧
        ∃ ids text, PlacesIds document ids ∧ ids.Nodup ∧
          (renderer none).overview document = .ok text ∧ placedIds text = ids ∧
          ids = [collectionsId, "minimal_package", packagesId, "signed_package"] := by
  intro modules
  have extracted : ∀ module ∈ modules, module.IsExtracted := isExtracted_of_mem_overviewModules
  have evaluated : (Topic.all.any fun topic =>
      let document := Document.build (.ofModules modules) (.ofRegistry (.ofModules modules)) topic
      decide document.lastSegments.Nodup && document.collections.length == 1 &&
        decide document.PlainTexts && ((renderer none).overview document).toOption.any (fun _ => true) &&
        (overviewIds document).toOption ==
          some [collectionsId, "minimal_package", packagesId, "signed_package"]) = true := by
    decide +kernel
  simp only [List.any_eq_true, Bool.and_eq_true, beq_iff_eq, decide_eq_true_eq] at evaluated
  obtain ⟨topic, mem, ⟨⟨⟨apart, one⟩, plain⟩, rendered⟩, listed⟩ := evaluated
  obtain ⟨ids, places, nodup, -⟩ := overviewIds_nodup_iff extracted topic
  rw [places.overviewIds_eq] at listed
  obtain ⟨text, shown, -⟩ := exists_eq_ok_of_any rendered
  exact ⟨extracted, topic, mem, apart, one, ids, text, places, nodup.2 apart, shown,
    places.found plain none text shown, Option.some.inj listed⟩

/-- Collections that differ from each other and packages that do may still share an identifier. -/
theorem not_every_overviewIds_nodup :
    ¬ ∀ (modules : List AnnotatedModule), ∀ topic ∈ Topic.all,
      (∀ module ∈ modules, module.IsExtracted) →
      let document := Document.build (.ofModules modules) (.ofRegistry (.ofModules modules)) topic
      (document.packages.map fun part => part.package.targetPath.getLast?).Nodup →
      (document.collections.map fun listing => listing.collection.targetPath.getLast?).Nodup →
      ∀ ids, overviewIds document = .ok ids → ids.Nodup := by
  intro all
  let modules := overviewModules "minimal" "minimal"
  have evaluated : (Topic.all.any fun topic =>
      let document := Document.build (.ofModules modules) (.ofRegistry (.ofModules modules)) topic
      decide (document.packages.map fun part => part.package.targetPath.getLast?).Nodup &&
        decide (document.collections.map fun listing =>
          listing.collection.targetPath.getLast?).Nodup &&
        !decide document.lastSegments.Nodup) = true := by
    decide +kernel
  simp only [List.any_eq_true, Bool.and_eq_true, Bool.not_eq_true', decide_eq_true_eq,
    decide_eq_false_iff_not] at evaluated
  obtain ⟨topic, mem, ⟨packages, collections⟩, repeated⟩ := evaluated
  obtain ⟨ids, listed, nodup⟩ :=
    nodup_iff_lastSegments (targeted_build isExtracted_of_mem_overviewModules topic)
  exact repeated (nodup.1
    (all modules topic mem isExtracted_of_mem_overviewModules packages collections ids listed))

end AsciiDoc

end PolicyPages
