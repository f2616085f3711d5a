import PolicyPages.Proofs.Document.Titles

/-!
# Modules outside a topic

A module that a topic does not contain is passed over when the document of the topic is assembled, so
its packages, with their rules, and its collections stay as they are (`ofTopic_insert`). Such a module can
reach the document in one way only: by the members of collections, which come from the whole registry. It
brings members by rules with tags, and it changes the titles of members by a package annotation that is
met before that of their own module. Without either of them no tag has other members
(`membersOf_insert`), and the whole document stays (`build_insert_outside`).
-/

namespace PolicyPages

variable {before after : List AnnotatedModule} {foreign : AnnotatedModule} {topic : Topic}

/-! ### What is assembled -/

theorem ofTopic_insert (outside : topic.contains foreign.file = false) :
    Assembly.ofTopic (.ofModules (before ++ foreign :: after)) topic =
      Assembly.ofTopic (.ofModules (before ++ after)) topic := by
  have same : (Registry.ofModules (before ++ foreign :: after)).modules.filter
        (fun module => topic.contains module.file) =
      (Registry.ofModules (before ++ after)).modules.filter
        fun module => topic.contains module.file := by
    simp [Registry.modules_ofModules, List.filter_filter, outside]
  rw [Assembly.ofTopic, same, Assembly.ofTopic]

/-- The collections of a document are those that were assembled, whatever their members. -/
theorem map_collection_build (registry : Registry) (membership : Membership) (topic : Topic) :
    (Document.build registry membership topic).collections.map Listing.collection =
      (Assembly.ofTopic registry topic).collections.mergeSort fun a b => a.title ≤ b.title := by
  let listings := (Assembly.ofTopic registry topic).collections.map fun note =>
    (⟨note, membership.members note.title⟩ : Listing)
  have sorted : (listings.mergeSort fun a b => a.collection.title ≤ b.collection.title).map
        Listing.collection =
      (listings.map Listing.collection).mergeSort fun a b => a.title ≤ b.title :=
    List.map_mergeSort fun _ _ _ _ => rfl
  have whole : listings.map Listing.collection = (Assembly.ofTopic registry topic).collections := by
    rw [List.map_map]
    exact List.map_id' _
  rw [whole] at sorted
  exact sorted

/-! ### Members of collections -/

/-- Nothing in a module can reach the collections of the others: no rule of it has a tag, and no package
annotation of it has the path of an annotation elsewhere. -/
structure AnnotatedModule.Apart (foreign : AnnotatedModule) (others : List AnnotatedModule) :
    Prop where
  untagged : ∀ rule ∈ foreign.annotations, rule.isPackage = false → rule.tags = []
  ownPaths : ∀ package ∈ foreign.annotations, package.isPackage = true →
    ∀ module ∈ others, ∀ note ∈ module.annotations, note.packagePath ≠ package.packagePath

section

variable {earlier own later : List Annotation}

/-- Package annotations with other paths do not change what is found for a path. -/
theorem firstPackage?_insert {path : String}
    (elsewhere : ∀ package ∈ own, package.isPackage = true → path ≠ package.packagePath) :
    firstPackage? (earlier ++ (own ++ later)) path = firstPackage? (earlier ++ later) path := by
  have none : firstPackage? own path = none := by
    rw [firstPackage?, List.find?_eq_none]
    intro package mem found
    obtain ⟨isPackage, same⟩ := Bool.and_eq_true_iff.1 found
    exact elsewhere package mem isPackage (beq_iff_eq.1 same).symm
  rw [firstPackage?] at none
  simp only [firstPackage?, List.find?_append, none, Option.none_or]

/-- The entries of a tag stay when annotations are put in that bring no tagged rule and no package
annotation with the path of another annotation. -/
theorem membersOf_insert (untagged : ∀ rule ∈ own, rule.isPackage = false → rule.tags = [])
    (ownPaths : ∀ package ∈ own, package.isPackage = true →
      ∀ note ∈ earlier ++ later, note.packagePath ≠ package.packagePath) (tag : String) :
    membersOf (earlier ++ (own ++ later)) tag = membersOf (earlier ++ later) tag := by
  have brought : own.filterMap (memberOf? (earlier ++ (own ++ later)) tag) = [] := by
    rw [List.filterMap_eq_nil_iff]
    intro rule mem
    rw [memberOf?]
    cases isPackage : rule.isPackage with
    | true => simp
    | false => simp [untagged rule mem isPackage]
  have kept : ∀ rule ∈ earlier ++ later,
      memberOf? (earlier ++ (own ++ later)) tag rule = memberOf? (earlier ++ later) tag rule := by
    intro rule mem
    have found : firstPackage? (earlier ++ (own ++ later)) rule.packagePath =
        firstPackage? (earlier ++ later) rule.packagePath :=
      firstPackage?_insert fun package inOwn isPackage => ownPaths package inOwn isPackage rule mem
    rw [memberOf?, memberOf?, found]
  unfold membersOf
  rw [← List.filterMap_congr kept, List.filterMap_append, List.filterMap_append, brought,
    List.nil_append, ← List.filterMap_append]

end

theorem members_insert (apart : foreign.Apart (before ++ after)) (tag : String) :
    (Membership.ofRegistry (.ofModules (before ++ foreign :: after))).members tag =
      (Membership.ofRegistry (.ofModules (before ++ after))).members tag := by
  simp only [Membership.members_ofModules, List.flatMap_append, List.flatMap_cons]
  rw [membersOf_insert apart.untagged]
  intro package mem isPackage note inOthers
  rw [← List.flatMap_append] at inOthers
  obtain ⟨module, inModules, inModule⟩ := List.mem_flatMap.1 inOthers
  exact apart.ownPaths package mem isPackage module inModules note inModule

/-! ### The document -/

/-- The document of a topic over the registry of some modules. -/
def Document.ofModules (modules : List AnnotatedModule) (topic : Topic) : Document :=
  build (.ofModules modules) (.ofRegistry (.ofModules modules)) topic

/-- A module outside a topic, wherever it is met, changes neither the packages of its document nor which
collections it has. If nothing in it can reach the collections of other modules, it changes nothing. -/
theorem build_insert_outside (before after : List AnnotatedModule) (foreign : AnnotatedModule)
    (topic : Topic) (outside : topic.contains foreign.file = false) :
    let document := Document.ofModules (before ++ after) topic
    let grown := Document.ofModules (before ++ foreign :: after) topic
    grown.packages = document.packages ∧
      grown.collections.map Listing.collection = document.collections.map Listing.collection ∧
      (foreign.Apart (before ++ after) → grown = document) := by
  intro document grown
  have assembled : Assembly.ofTopic (.ofModules (before ++ foreign :: after)) topic =
      Assembly.ofTopic (.ofModules (before ++ after)) topic :=
    ofTopic_insert outside
  unfold document grown Document.ofModules
  refine ⟨?_, ?_, fun apart => ?_⟩
  · unfold Document.build Document.ofAssembly
    rw [assembled]
  · rw [map_collection_build, map_collection_build, assembled]
  · have listed := members_insert apart
    unfold Document.build Document.ofAssembly
    rw [assembled]
    simp only [listed]

/-- A module with a package of its own and a rule without tags. -/
def pipelineModule : AnnotatedModule where
  root := .ofText "repo"
  file := .ofText "policy/pipeline/p.rego"
  annotations :=
    [ { scope := .package, title := "M", description := "", custom := []
        targetPath := ["data", "p"], location := ⟨.ofText "policy/pipeline/p.rego", 1, "data.p"⟩ },
      { scope := .rule, title := "A", description := ""
        custom := [("collections", .array [.null]), ("short_name", .string "a")]
        targetPath := ["data", "p", "deny"]
        location := ⟨.ofText "policy/pipeline/p.rego", 4, "data.p"⟩ } ]

/-- Between modules that list rules of two topics in a collection, it changes nothing of the document. -/
theorem build_insert_outside_sample :
    let topic : Topic := ⟨"Release", "release", ""⟩
    topic.contains pipelineModule.file = false ∧ pipelineModule.Apart titledModules ∧
      (membersOf (titledModules.flatMap AnnotatedModule.annotations) "m").length = 2 ∧
      Document.ofModules (titledModules.take 1 ++ pipelineModule :: titledModules.drop 1) topic =
        Document.ofModules (titledModules.take 1 ++ titledModules.drop 1) topic := by
  intro topic
  have outside : topic.contains pipelineModule.file = false := by decide +kernel
  -- The modules are read from their texts, once for both.
  have evaluated : (∀ package ∈ pipelineModule.annotations, package.isPackage = true →
        ∀ module ∈ titledModules, ∀ note ∈ module.annotations,
          note.packagePath ≠ package.packagePath) ∧
      (membersOf (titledModules.flatMap AnnotatedModule.annotations) "m").length = 2 := by
    decide +kernel
  have apart : pipelineModule.Apart titledModules := ⟨by decide +kernel, evaluated.1⟩
  refine ⟨outside, apart, evaluated.2, ?_⟩
  exact (build_insert_outside _ _ _ topic outside).2.2 (by rwa [List.take_append_drop])

end PolicyPages
