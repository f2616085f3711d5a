import Mathlib.Data.Prod.Lex
import PolicyPages.Document.Assembly
import PolicyPages.Page.Anchor
import PolicyPages.Proofs.Registry
import PolicyPages.Proofs.StableSort

/-!
# What collections list

The members of the collections and the warnings of a registry, said of its annotations alone. A rule
is resolved if some package annotation has its path; the first of them gives the title under which
the rule is listed. `membersOf` are the entries of a tag in the order in which the rules are met, one
for each resolved rule that carries it, and `unresolvedRules` are the tagged rules without a package.

`collections_account` is that the members of a tag are `membersOf`, stably sorted, and the warnings
are those for `unresolvedRules`, in order. Each rule is placed in one step (`members_place`,
`warnings_place`), in which a tag that it repeats counts once.
-/

namespace PolicyPages

open Annotation (isBuiltIn isPackage packagePath tags)

/-! ### Resolved rules -/

/-- The entry of a rule under a tag. It has one if it carries the tag and its package is annotated. -/
def memberOf? (notes : List Annotation) (tag : String) (rule : Annotation) : Option Member :=
  if !rule.isPackage && rule.tags.contains tag then
    (firstPackage? notes rule.packagePath).map fun package => .ofRule package.title rule
  else none

/-- The entries of a tag in the order in which the rules are met. -/
def membersOf (notes : List Annotation) (tag : String) : List Member :=
  notes.filterMap (memberOf? notes tag)

/-- Whether the annotation is that of a tagged rule whose package is not annotated. -/
def isUnresolved (notes : List Annotation) (rule : Annotation) : Bool :=
  !rule.isPackage && !rule.tags.isEmpty && (firstPackage? notes rule.packagePath).isNone

/-- The tagged rules whose package is not annotated. -/
def unresolvedRules (notes : List Annotation) : List Annotation :=
  notes.filter (isUnresolved notes)

/-- Members are in the order of the titles of their packages, then of their own. -/
def Member.key (member : Member) : String ×ₗ String :=
  toLex (member.packageTitle, member.rule.title)

section

variable {notes : List Annotation} {tag : String} {rule : Annotation} {member : Member}

theorem mem_membersOf_iff : member ∈ membersOf notes tag ↔
    ∃ rule ∈ notes, rule.isPackage = false ∧ tag ∈ rule.tags ∧
      ∃ package, firstPackage? notes rule.packagePath = some package ∧
        member = .ofRule package.title rule := by
  rw [membersOf, List.mem_filterMap]
  refine exists_congr fun rule => and_congr_right fun _ => ?_
  rw [memberOf?]
  cases isPackage : rule.isPackage with
  | true => simp
  | false =>
    by_cases tagged : tag ∈ rule.tags
    · simp [tagged, @eq_comm _ member]
    · simp [tagged]

theorem mem_unresolvedRules_iff : rule ∈ unresolvedRules notes ↔
    rule ∈ notes ∧ rule.isPackage = false ∧ rule.tags ≠ [] ∧
      firstPackage? notes rule.packagePath = none := by
  simp [unresolvedRules, isUnresolved, and_assoc]

/-! ### Entries -/

namespace Member

variable {title : String}

theorem get?_custom_ofRule {key : String} (other : "package_title" ≠ key) :
    Dictionary.get? (ofRule title rule).rule.custom key = Dictionary.get? rule.custom key := by
  rw [ofRule, Dictionary.get?_insert, if_neg other]

theorem inOrder_iff (a b : Member) : Membership.inOrder a b = true ↔ a.key ≤ b.key := by
  rw [key, key, Prod.Lex.toLex_le_toLex]
  simp [Membership.inOrder]

end Member

/-! ### Placing rules -/

namespace Membership

variable {membership : Membership} {registry : Registry}

theorem getD_get?_addTo (member : Member) (byTag : Dictionary (List Member)) (other tag : String) :
    (Dictionary.get? (addTo member byTag other) tag).getD [] =
      (Dictionary.get? byTag tag).getD [] ++ if other = tag then [member] else [] := by
  rw [addTo, Dictionary.get?_insert]
  by_cases same : other = tag
  · simp [same]
  · simp [same]

/-- Under distinct tags a member is added once to each. -/
theorem getD_get?_foldl_addTo (member : Member) (byTag : Dictionary (List Member))
    {tags : List String} (distinct : tags.Nodup) (tag : String) :
    (Dictionary.get? (tags.foldl (addTo member) byTag) tag).getD [] =
      (Dictionary.get? byTag tag).getD [] ++ if tag ∈ tags then [member] else [] := by
  induction tags generalizing byTag with
  | nil => simp
  | cons first rest ih =>
    obtain ⟨new, distinct⟩ := List.nodup_cons.1 distinct
    rw [List.foldl_cons, ih _ distinct, getD_get?_addTo, List.append_assoc]
    by_cases same : first = tag
    · subst same
      simp [new]
    · simp [same, Ne.symm same]

variable (indexed : ∀ path, registry.package? path = firstPackage? notes path)

include indexed

/-- Placing a rule adds its entry to a tag. -/
theorem members_place (rule : Annotation) (tag : String) :
    (place registry membership rule).members tag =
      membership.members tag ++ (memberOf? notes tag rule).toList := by
  rw [place, memberOf?]
  cases isPackage : rule.isPackage with
  | true => simp
  | false =>
    have here : registry.package? rule.location.packagePath =
        firstPackage? notes rule.packagePath := indexed _
    by_cases untagged : rule.tags = []
    · simp [untagged]
    · cases found : firstPackage? notes rule.packagePath with
      | none =>
        rw [found] at here
        simp [here, untagged, members]
      | some package =>
        rw [found] at here
        have added := getD_get?_foldl_addTo (.ofRule package.title rule) membership.byTag
          (nodup_eraseDups rule.tags) tag
        simp only [List.mem_eraseDups] at added
        by_cases tagged : tag ∈ rule.tags
        · simpa [here, untagged, members, tagged] using added
        · simpa [here, untagged, members, tagged] using added

/-- Placing a rule adds a warning if the rule is unresolved. -/
theorem warnings_place (rule : Annotation) :
    (place registry membership rule).warnings =
      membership.warnings ++ if isUnresolved notes rule then [.ofRule rule] else [] := by
  have here : registry.package? rule.location.packagePath =
      firstPackage? notes rule.packagePath := indexed _
  rw [place, isUnresolved, here]
  cases isPackage : rule.isPackage with
  | true => simp
  | false =>
    by_cases untagged : rule.tags = []
    · simp [untagged]
    · cases firstPackage? notes rule.packagePath with
      | none => simp [untagged]
      | some package => simp [untagged]

theorem members_foldl_place (rules : List Annotation) (tag : String) :
    (rules.foldl (place registry) membership).members tag =
      membership.members tag ++ rules.filterMap (memberOf? notes tag) := by
  induction rules generalizing membership with
  | nil => simp
  | cons rule rest ih =>
    rw [List.foldl_cons, ih, members_place indexed, List.append_assoc]
    cases entry : memberOf? notes tag rule with
    | none => simp [entry]
    | some member => simp [entry]

theorem warnings_foldl_place (rules : List Annotation) :
    (rules.foldl (place registry) membership).warnings =
      membership.warnings ++ (rules.filter (isUnresolved notes)).map LookupWarning.ofRule := by
  induction rules generalizing membership with
  | nil => simp
  | cons rule rest ih =>
    rw [List.foldl_cons, ih, warnings_place indexed, List.append_assoc]
    cases unresolved : isUnresolved notes rule with
    | false => simp [unresolved]
    | true => simp [unresolved]

end Membership

end

/-! ### A whole registry -/

namespace Membership

theorem members_ofRegistry (registry : Registry) (tag : String) :
    (ofRegistry registry).members tag =
      ((registry.annotations.foldl (place registry) empty).members tag).mergeSort inOrder := by
  let placed := registry.annotations.foldl (place registry) empty
  have sorted : (ofRegistry registry).members tag =
      ((Dictionary.get? placed.byTag tag).map fun found => found.mergeSort inOrder).getD [] :=
    congrArg (Option.getD · []) (Dictionary.get?_map (List.mergeSort · inOrder) placed.byTag tag)
  rw [sorted]
  show _ = ((Dictionary.get? placed.byTag tag).getD []).mergeSort inOrder
  cases Dictionary.get? placed.byTag tag with
  | none => simp
  | some found => rfl

variable (modules : List AnnotatedModule)

/-- The members of a tag in the registry of some modules are its entries, sorted. -/
theorem members_ofModules (tag : String) :
    (ofRegistry (.ofModules modules)).members tag =
      (membersOf (modules.flatMap AnnotatedModule.annotations) tag).mergeSort inOrder := by
  have indexed := Registry.package?_ofModules modules
  rw [members_ofRegistry, members_foldl_place indexed, Registry.annotations_ofModules]
  rfl

theorem stablySorted_members_ofModules (tag : String) :
    StablySorted Member.key (membersOf (modules.flatMap AnnotatedModule.annotations) tag)
      ((ofRegistry (.ofModules modules)).members tag) := by
  rw [members_ofModules]
  exact stablySorted_mergeSort Member.inOrder_iff _

theorem warnings_ofModules : (ofRegistry (.ofModules modules)).warnings =
    (unresolvedRules (modules.flatMap AnnotatedModule.annotations)).map LookupWarning.ofRule := by
  have indexed := Registry.package?_ofModules modules
  show ((Registry.ofModules modules).annotations.foldl
    (place (.ofModules modules)) empty).warnings = _
  rw [warnings_foldl_place indexed, Registry.annotations_ofModules]
  rfl

/-- Members come from resolved rules with the tag. -/
theorem mem_members_ofModules_iff {tag : String} {member : Member} :
    member ∈ (ofRegistry (.ofModules modules)).members tag ↔
      member ∈ membersOf (modules.flatMap AnnotatedModule.annotations) tag :=
  (stablySorted_members_ofModules modules tag).perm.mem_iff

end Membership

theorem members_of_mem_collections {registry : Registry} {membership : Membership} {topic : Topic}
    {listing : Listing} (listed : listing ∈ (Document.build registry membership topic).collections) :
    listing.members = membership.members listing.collection.title := by
  rw [Document.build, Document.ofAssembly, List.mem_mergeSort] at listed
  obtain ⟨note, _, rfl⟩ := List.mem_map.1 listed
  rfl

end PolicyPages
