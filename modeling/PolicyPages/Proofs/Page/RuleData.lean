import PolicyPages.Page.RuleData
import PolicyPages.Proofs.Json.Layers
import PolicyPages.Proofs.Text.ByteOrder

/-!
# Where the parameters of a rule come from

Two ways lead to parameters: the rule lists them itself (`ListsItself`), or the annotation of its package
lists them under the rule's short name (`ListsFor`). Each step of a way asks for an entry of a certain
kind. Where an entry is missing or is of another kind, the way leads to no parameters (`Follows`, and
`Follows.step` for one step more).

`ruleData_overlays` says how the two ways go together (`Overlays`): the package lies on top, and a way
that leads to no parameters leaves those of the other one as they are. The values that an annotation holds
are dictionaries at every depth, so no key stands twice in them.
-/

namespace PolicyPages.RuleData

open Annotation (shortName?_eq_some_iff)
open Json (Value)
open Dictionary

/-- The rule lists these parameters: its entry for them is an object. -/
def ListsItself (rule : Annotation) (data : Dictionary Value) : Prop :=
  get? rule.custom ruleDataKey = some (.object data)

/-- The package lists these parameters for the rule: the rule's short name is a text, the package has an
object under it, and the entry for parameters in that one is an object again. -/
def ListsFor (package rule : Annotation) (data : Dictionary Value) : Prop :=
  ∃ shortName entry, get? rule.custom "short_name" = some (.string shortName) ∧
    get? package.custom shortName = some (.object entry) ∧
    get? entry ruleDataKey = some (.object data)

/-- The way through the package breaks off at one of its three steps: no text stands where the rule's short
name should, no object where the package's entry should, or no object where its parameters should. -/
inductive BreaksOff (package rule : Annotation) : Prop where
  | shortName (none : ∀ text, get? rule.custom "short_name" ≠ some (.string text))
  | entry (shortName : String) (named : get? rule.custom "short_name" = some (.string shortName))
      (none : ∀ entry, get? package.custom shortName ≠ some (.object entry))
  | data (shortName : String) (entry : Dictionary Value)
      (named : get? rule.custom "short_name" = some (.string shortName))
      (inPackage : get? package.custom shortName = some (.object entry))
      (none : ∀ data, get? entry ruleDataKey ≠ some (.object data))

/-- The parameters of a rule are those it lists with those its package lists for it laid over them. -/
structure Overlays (package rule : Annotation) (parameters : Dictionary Value) : Prop where
  mem_keys_iff : ∀ key, key ∈ keys parameters ↔
    (∃ data, ListsItself rule data ∧ key ∈ keys data) ∨
      ∃ data, ListsFor package rule data ∧ key ∈ keys data
  fromPackage : ∀ data key value, ListsFor package rule data → get? data key = some value →
    get? parameters key = some value
  fromRule : ∀ data key value, ListsItself rule data → get? data key = some value →
    (∀ above, ListsFor package rule above → key ∉ keys above) → get? parameters key = some value
  ascending : (keys parameters).Pairwise fun key other => Text.bytes key < Text.bytes other
  nodup : (keys parameters).Nodup
  ruleAlone : BreaksOff package rule → ∀ data, ListsItself rule data → parameters = data
  packageAlone : (∀ data, ¬ ListsItself rule data) →
    ∀ data, ListsFor package rule data → parameters = data
  neither : (∀ data, ¬ ListsItself rule data) → BreaksOff package rule → parameters = []

/-! ### Following a way -/

/-- What is found where a way lists something: what it lists, and nothing if it lists nothing. -/
structure Follows (lists : Dictionary Value → Prop) (found : Dictionary Value) : Prop where
  eq_of_lists : ∀ data, lists data → found = data
  eq_nil : (∀ data, ¬ lists data) → found = []

namespace Follows

variable {lists : Dictionary Value → Prop} {found : Dictionary Value}

theorem start (entries : Dictionary Value) : Follows (· = entries) entries where
  eq_of_lists _ same := same.symm
  eq_nil none := absurd rfl (none entries)

/-- One step more: the objects that stand under a key. -/
theorem step (follows : Follows lists found) (key : String) :
    Follows (fun data => ∃ entry, lists entry ∧ get? entry key = some (.object data))
      (objectAt found key) where
  eq_of_lists := by
    rintro data ⟨entry, listed, inEntry⟩
    rw [follows.eq_of_lists entry listed, objectAt, inEntry, Option.bind_some, Value.object?,
      Option.getD_some]
  eq_nil := by
    intro none
    by_cases listed : ∃ entry, lists entry
    · obtain ⟨entry, listed⟩ := listed
      rw [follows.eq_of_lists entry listed, objectAt]
      cases inEntry : get? entry key with
      | none => rfl
      | some value =>
        cases value with
        | object data => exact absurd ⟨entry, listed, inEntry⟩ (none data)
        | _ => rfl
    · rw [follows.eq_nil fun entry lists => listed ⟨entry, lists⟩]
      rfl

theorem cases (follows : Follows lists found) :
    lists found ∨ (∀ data, ¬ lists data) ∧ found = [] := by
  by_cases listed : ∃ data, lists data
  · obtain ⟨data, listed⟩ := listed
    exact .inl (follows.eq_of_lists data listed ▸ listed)
  · have none : ∀ data, ¬ lists data := fun data lists => listed ⟨data, lists⟩
    exact .inr ⟨none, follows.eq_nil none⟩

theorem mem_keys_iff (follows : Follows lists found) {key : String} :
    key ∈ keys found ↔ ∃ data, lists data ∧ key ∈ keys data := by
  constructor
  · intro mem
    rcases follows.cases with listed | ⟨-, rfl⟩
    · exact ⟨found, listed, mem⟩
    · exact absurd mem List.not_mem_nil
  · rintro ⟨data, listed, mem⟩
    rwa [follows.eq_of_lists data listed]

theorem sorted (follows : Follows lists found) (each : ∀ data, lists data → Sorted data) :
    Sorted found := by
  rcases follows.cases with listed | ⟨-, rfl⟩
  · exact each found listed
  · exact List.Pairwise.nil

end Follows

/-! ### The two ways -/

section

variable {package rule : Annotation} {data : Dictionary Value}

theorem follows_ownRuleData (rule : Annotation) :
    Follows (ListsItself rule) rule.ownRuleData := by
  unfold ListsItself Annotation.ownRuleData
  simpa using (Follows.start rule.custom).step ruleDataKey

theorem follows_ruleDataFor (package rule : Annotation) :
    Follows (ListsFor package rule) (package.ruleDataFor rule) := by
  unfold Annotation.ruleDataFor
  split
  · rename_i shortName named
    have inPackage := ((Follows.start package.custom).step shortName).step ruleDataKey
    have named' := shortName?_eq_some_iff.1 named
    have same : ListsFor package rule = fun data => ∃ entry,
        (∃ entries, entries = package.custom ∧ get? entries shortName = some (.object entry)) ∧
          get? entry ruleDataKey = some (.object data) := by
      funext data
      simp [ListsFor, named']
    rwa [same]
  · rename_i unnamed
    have none : ∀ data, ¬ ListsFor package rule data := by
      rintro data ⟨shortName, -, named, -⟩
      exact absurd (unnamed.symm.trans (shortName?_eq_some_iff.2 named)) nofun
    exact ⟨fun data listed => absurd listed (none data), fun _ => rfl⟩

/-- The way through the package leads to no parameters just where it breaks off. -/
theorem breaksOff_iff : BreaksOff package rule ↔ ∀ data, ¬ ListsFor package rule data := by
  constructor
  · rintro broken data ⟨shortName, entry, named, inPackage, inEntry⟩
    cases broken with
    | shortName none => exact none shortName named
    | entry shortName' named' none =>
      obtain rfl : shortName' = shortName := by simpa [named'] using named
      exact none entry inPackage
    | data shortName' entry' named' inPackage' none =>
      obtain rfl : shortName' = shortName := by simpa [named'] using named
      obtain rfl : entry' = entry := by simpa [inPackage'] using inPackage
      exact none data inEntry
  · intro none
    by_cases hasName : ∃ shortName, get? rule.custom "short_name" = some (.string shortName)
    · obtain ⟨shortName, named⟩ := hasName
      by_cases hasEntry : ∃ entry, get? package.custom shortName = some (.object entry)
      · obtain ⟨entry, inPackage⟩ := hasEntry
        exact .data shortName entry named inPackage fun data inEntry =>
          none data ⟨shortName, entry, named, inPackage, inEntry⟩
      · exact .entry shortName named fun entry found => hasEntry ⟨entry, found⟩
    · exact .shortName fun text found => hasName ⟨text, found⟩

theorem ListsItself.sorted (custom : (Value.object rule.custom).Sorted)
    (lists : ListsItself rule data) : Sorted data :=
  (custom.member lists).keys

theorem ListsFor.sorted (custom : (Value.object package.custom).Sorted)
    (lists : ListsFor package rule data) : Sorted data := by
  obtain ⟨_, _, _, inPackage, inEntry⟩ := lists
  exact ((custom.member inPackage).member inEntry).keys

end

/-! ### The parameters -/

/-- The parameters of a rule: both ways lead to them, the package has the last word on each key, and
neither way hides the other. -/
theorem ruleData_overlays (package rule : Annotation)
    (inPackage : (Value.object package.custom).Sorted) (inRule : (Value.object rule.custom).Sorted) :
    Overlays package rule (ruleData package rule) := by
  have own := follows_ownRuleData rule
  have above := follows_ruleDataFor package rule
  have ownSorted : Sorted rule.ownRuleData := own.sorted fun _ => ListsItself.sorted inRule
  have aboveSorted : Sorted (package.ruleDataFor rule) :=
    above.sorted fun _ => ListsFor.sorted inPackage
  have sorted : Sorted (ruleData package rule) := sorted_ofList _
  have read (key : String) : get? (ruleData package rule) key =
      (get? (package.ruleDataFor rule) key).or (get? rule.ownRuleData key) :=
    get?_ofList_append ownSorted aboveSorted key
  constructor
  case mem_keys_iff =>
    intro key
    rw [← own.mem_keys_iff, ← above.mem_keys_iff, ← Decidable.not_iff_not, not_or,
      ← get?_eq_none_iff, ← get?_eq_none_iff, ← get?_eq_none_iff, read, Option.or_eq_none_iff,
      and_comm]
  case fromPackage =>
    intro data key value listed found
    rw [read, above.eq_of_lists data listed, found, Option.some_or]
  case fromRule =>
    intro data key value listed found free
    have silent : get? (package.ruleDataFor rule) key = none := by
      rw [get?_eq_none_iff, above.mem_keys_iff]
      rintro ⟨top, listed', mem⟩
      exact free top listed' mem
    rw [read, silent, Option.none_or, own.eq_of_lists data listed, found]
  case ascending => exact sorted.imp Text.bytes_lt_iff.2
  case nodup =>
    refine sorted.imp fun less same => ?_
    exact String.lt_irrefl _ (same ▸ less)
  case ruleAlone =>
    intro broken data listed
    rw [ruleData, above.eq_nil (breaksOff_iff.1 broken), List.append_nil, ofList_of_sorted ownSorted,
      own.eq_of_lists data listed]
  case packageAlone =>
    intro none data listed
    rw [ruleData, own.eq_nil none, List.nil_append, ofList_of_sorted aboveSorted,
      above.eq_of_lists data listed]
  case neither =>
    intro none broken
    rw [ruleData, own.eq_nil none, above.eq_nil (breaksOff_iff.1 broken)]
    rfl

/-- An annotation with these custom metadata. -/
def noteWith (scope : Scope) (custom : Dictionary Value) : Annotation where
  scope := scope
  title := "Images are allowed"
  description := ""
  custom := custom
  targetPath := ["data", "policy", "release", "images", "deny"]
  location := ⟨.ofText "policy/release/images.rego", 7, "data.policy.release.images"⟩

/-- A rule that lists two parameters under a short name. -/
def listingRule : Annotation :=
  noteWith .rule [("rule_data", .object [("allowed", .string "all"), ("limit", .bool true)]),
    ("short_name", .string "images")]

/-- A package that takes back one of them and lists another one. -/
def listingPackage : Annotation :=
  noteWith .package
    [("images", .object [("rule_data", .object [("extra", .array []), ("limit", .null)])])]

theorem ruleData_overlays_sample :
    (Value.object listingPackage.custom).Sorted ∧ (Value.object listingRule.custom).Sorted ∧
      Overlays listingPackage listingRule (ruleData listingPackage listingRule) ∧
      ruleData listingPackage listingRule =
        [("allowed", .string "all"), ("extra", .array []), ("limit", .null)] := by
  have inPackage : (Value.object listingPackage.custom).Sorted := by
    simp only [listingPackage, noteWith, Value.Sorted, Value.MembersSorted, Value.ItemsSorted,
      Dictionary.Sorted]
    decide
  have inRule : (Value.object listingRule.custom).Sorted := by
    simp only [listingRule, noteWith, Value.Sorted, Value.MembersSorted, Dictionary.Sorted]
    decide
  exact ⟨inPackage, inRule, ruleData_overlays listingPackage listingRule inPackage inRule, rfl⟩

end PolicyPages.RuleData
