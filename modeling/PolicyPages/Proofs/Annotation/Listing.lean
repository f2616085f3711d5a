import Mathlib.Data.List.Nodup
import PolicyPages.Generation
import PolicyPages.Proofs.Files.Access
import PolicyPages.Proofs.Json.RoundTrip

/-!
# The list of annotations is read back

A record is written as an object with one member for each field, and read from the members with the
names of the fields (`fields?_tree_object`). So an annotation is read back from the object that it is
written as (`ofJson?_tree_toJson`), if it is *listable*: its file name is a text, its line fits 64 bits,
and its custom metadata hold no floating-point number and nest no deeper than can be read within the
list. Then the list of annotations loses nothing, neither as a text (`listOfText?_listing`) nor as the
file that is written.
-/

namespace PolicyPages

open Json (Integer Numeral Value Written)

/-! ### Records -/

/-- If each of several values is read, so are all. -/
theorem mapM_eq_some_map {α β : Type} {read : α → Option β} (value : α → β) {xs : List α}
    (each : ∀ x ∈ xs, read x = some (value x)) : xs.mapM read = some (xs.map value) := by
  induction xs with
  | nil => rfl
  | cons x xs ih =>
    obtain ⟨first, others⟩ := List.forall_mem_cons.1 each
    rw [List.mapM_cons, first, ih others]
    rfl

namespace Json.Written

theorem itemTrees_eq_map (items : List Value) : Value.itemTrees items = items.map Value.tree := by
  induction items with
  | nil => rfl
  | cons item items ih => rw [Value.itemTrees, ih, List.map_cons]

theorem memberTrees_eq_map (members : List (String × Value)) :
    Value.memberTrees members = members.map fun member => (some member.1, member.2.tree) := by
  induction members with
  | nil => rfl
  | cons member members ih => rw [Value.memberTrees, ih, List.map_cons]

/-- Where names differ, there is one member with each of them. -/
theorem filter_memberTrees {members : List (String × Value)}
    (distinct : (members.map Prod.fst).Nodup) {member : String × Value} (mem : member ∈ members) :
    (Value.memberTrees members).filter (·.1 == some member.1) =
      [(some member.1, member.2.tree)] := by
  induction members with
  | nil => contradiction
  | cons first members ih =>
    obtain ⟨fresh, distinct⟩ := List.nodup_cons.1 distinct
    rw [Value.memberTrees]
    rcases List.mem_cons.1 mem with rfl | later
    · have none : (Value.memberTrees members).filter (·.1 == some member.1) = [] := by
        rw [memberTrees_eq_map, List.filter_eq_nil_iff, List.forall_mem_map]
        intro other inside same
        exact fresh (List.mem_map.2 ⟨other, inside, by simpa using same⟩)
      rw [List.filter_cons_of_pos (by simp), none]
    · have apart : first.1 ≠ member.1 := fun same =>
        fresh (List.mem_map.2 ⟨member, later, same.symm⟩)
      rw [List.filter_cons_of_neg (by simpa using apart), ih distinct later]

/-- The fields of a record whose names differ are its members in order. -/
theorem fields?_tree_object (members : List (String × Value))
    (distinct : (members.map Prod.fst).Nodup) :
    (Value.object members).tree.fields? (members.map Prod.fst) =
      some (members.map fun member => member.2.tree) := by
  have named : (Value.memberTrees members).all (·.1.isSome) = true := by
    simp [memberTrees_eq_map]
  rw [Value.tree, fields?, if_pos named, List.mapM_map]
  refine mapM_eq_some_map _ fun member mem => ?_
  simp only [Function.comp_apply, filter_memberTrees distinct mem]

theorem text?_tree_string (text : String) : (Value.string text).tree.text? = some text := by
  rw [Value.tree, text?]

theorem nat?_tree_integer {n : Integer} (noSign : 0 ≤ n.val) :
    (Value.integer n).tree.nat? = some n.val.toNat := by
  rw [Value.tree, nat?, Numeral.integer?_ofInteger]
  exact if_pos noSign

theorem texts?_tree_array (texts : List String) :
    (Value.array (texts.map .string)).tree.texts? = some texts := by
  rw [Value.tree, itemTrees_eq_map, texts?, List.map_map, List.mapM_map,
    mapM_eq_some_map id, List.map_id]
  intro text _
  exact text?_tree_string text

/-- The dictionary of an object is the one that it was written for. -/
theorem dictionary?_tree_object {members : Dictionary Value} {levels : Nat}
    (sorted : (Value.object members).Sorted) (floatFree : (Value.object members).FloatFree)
    (shallow : (Value.object members).depth + levels ≤ Value.maxDepth) :
    (Value.object members).tree.dictionary? levels = some members := by
  rw [Value.Sorted] at sorted
  rw [Value.FloatFree] at floatFree
  have depth := Value.depth_tree (.object members)
  rw [Value.tree] at depth ⊢
  rw [dictionary?, depth, if_pos shallow,
    Value.memberValues?_memberTrees members sorted.2 floatFree, Option.map_some,
    Dictionary.ofList_of_sorted sorted.1]

end Json.Written

theorem Scope.ofJson?_tree_keyword (scope : Scope) :
    Scope.ofJson? (Value.string scope.keyword).tree = some scope := by
  rw [Value.tree, ofJson?, Option.bind_some]
  exact ofKeyword?_eq_some_iff.2 rfl

/-- A natural number of 64 bits is a whole number that has a numeral. -/
theorem Json.Integer.exists_ofInt?_natCast {n : Nat} (small : n < Nat.pow 2 64) :
    ∃ number : Integer, Integer.ofInt? n = some number ∧ number.val = n := by
  have upper : (n : Int) < 18446744073709551616 := Int.ofNat_lt.2 small
  exact ⟨⟨n, by omega, upper⟩, dif_pos ⟨by omega, upper⟩, rfl⟩

/-- A location is read back from the object that it is written as. -/
theorem Location.ofJson?_tree_toJson {location : Location} (file : location.file.text?.isSome)
    (row : location.row < Nat.pow 2 64) : Location.ofJson? location.toJson.tree = some location := by
  obtain ⟨text, isText⟩ := Option.isSome_iff_exists.1 file
  have named : Path.ofText location.file.display = location.file := by
    rw [Path.text?_eq_some_iff.1 isText, Path.display_ofText]
  obtain ⟨n, counted, val⟩ := Integer.exists_ofInt?_natCast row
  have fields := Written.fields?_tree_object
    [("file", .string location.file.display), ("row", .integer n),
      ("package_path", .string location.packagePath)]
    (show ["file", "row", "package_path"].Nodup by decide)
  simp only [List.map_cons, List.map_nil] at fields
  rw [ofJson?, toJson, counted]
  simp only [fields, Option.bind_eq_bind, Option.bind_some, Written.text?_tree_string,
    Written.nat?_tree_integer (show 0 ≤ n.val by omega), named]
  simp [val]

/-- An annotation that a list can hold without a loss. Its custom metadata are dictionaries at every depth,
so they stand in the order of their keys; they hold whole numbers only, and they may be read two levels
below a text, namely within the list and within the annotation. -/
structure Annotation.IsListable (note : Annotation) : Prop where
  file : note.location.file.text?.isSome
  row : note.location.row < Nat.pow 2 64
  sorted : (Value.object note.custom).Sorted
  floatFree : (Value.object note.custom).FloatFree
  shallow : (Value.object note.custom).depth + 2 ≤ Value.maxDepth

/-- An annotation that can be listed is read back from the object that it is written as. -/
theorem Annotation.ofJson?_tree_toJson {note : Annotation} (listable : note.IsListable) :
    Annotation.ofJson? 1 note.toJson.tree = some note := by
  have fields := Written.fields?_tree_object
    [("scope", .string note.scope.keyword), ("title", .string note.title),
      ("description", .string note.description), ("custom", .object note.custom),
      ("target_path", .array (note.targetPath.map .string)), ("location", note.location.toJson)]
    (show ["scope", "title", "description", "custom", "target_path", "location"].Nodup by decide)
  simp only [List.map_cons, List.map_nil] at fields
  rw [ofJson?, toJson]
  simp only [fields, Option.bind_eq_bind, Option.bind_some, Written.text?_tree_string,
    Scope.ofJson?_tree_keyword, Written.texts?_tree_array,
    Written.dictionary?_tree_object listable.sorted listable.floatFree listable.shallow,
    Location.ofJson?_tree_toJson listable.file listable.row]

theorem Annotation.floatFree_toJson {note : Annotation}
    (floatFree : (Value.object note.custom).FloatFree) : note.toJson.FloatFree := by
  have location : note.location.toJson.FloatFree := by
    rw [Location.toJson]
    cases Integer.ofInt? note.location.row <;> simp
  rw [toJson, Value.floatFree_object_iff]
  simp only [List.forall_mem_cons]
  exact ⟨by simp, by simp, by simp, floatFree, by simp, location, nofun⟩

namespace Registry

variable {registry : Registry}

/-- The text of a list is read as its annotations, in order. -/
theorem listOfText?_listing (listable : ∀ note ∈ registry.annotations, note.IsListable) :
    Annotation.listOfText? registry.listing = some registry.annotations := by
  have floatFree : (Value.array (registry.annotations.map Annotation.toJson)).FloatFree := by
    rw [Value.floatFree_array_iff, List.forall_mem_map]
    exact fun note mem => Annotation.floatFree_toJson (listable note mem).floatFree
  have read := Value.ofText?_written floatFree (.lines 0) ['\n']
    (List.forall_mem_singleton.2 rfl)
  have spelled : registry.listing = String.ofList
      ((Value.array (registry.annotations.map Annotation.toJson)).written (.lines 0) ++ ['\n']) := by
    rw [listing, Value.pretty, String.ofList_append]
  unfold Annotation.listOfText?
  rw [spelled, read, Value.tree, Written.itemTrees_eq_map]
  simp only [Option.bind_eq_bind, Option.bind_some, List.map_map, List.mapM_map]
  rw [mapM_eq_some_map id, List.map_id]
  exact fun note mem => Annotation.ofJson?_tree_toJson (listable note mem)

theorem namesAreTexts_of_isListable (listable : ∀ note ∈ registry.annotations, note.IsListable) :
    registry.namesAreTexts = true :=
  List.all_eq_true.2 fun note mem => (listable note mem).file

end Registry

/-- A text that is written is read back. Nothing but the files can keep it from being written. -/
theorem Generation.meets_write_log (path : Path) (text : String) (events : List Log.Event)
    (before : Session) :
    (do Action.write (.write path) path text; Action.log events : Action Failure Unit).Meets before
      (fun _ after => after.files.read path = .ok text)
      (fun failure _ => ∃ error, failure = .write path error) := by
  rw [Action.meets_bind_iff, Action.Meets, Action.outcome_write]
  cases written : before.files.write path (.text text) with
  | error error => exact ⟨error, rfl⟩
  | ok tree => exact Files.Tree.read_of_write written

/-- A list of annotations that can be listed is read back from its text, and its text from the file that
it is written to. Nothing but the files can keep it from being written. -/
theorem Generation.writeListing_reads_back {registry : Registry}
    (listable : ∀ note ∈ registry.annotations, note.IsListable) (path : Path) (before : Session) :
    Annotation.listOfText? registry.listing = some registry.annotations ∧
      (writeListing registry path).Meets before
        (fun _ after => after.files.read path = .ok registry.listing)
        (fun failure _ => ∃ error, failure = .write path error) := by
  refine ⟨Registry.listOfText?_listing listable, ?_⟩
  unfold writeListing
  rw [if_neg (by simp [Registry.namesAreTexts_of_isListable listable])]
  cases path.parent? with
  | none => exact meets_write_log path _ _ before
  | some parent =>
    dsimp only
    rw [Action.meets_bind_iff, Action.Meets, Action.outcome_createDirectories]
    cases made : before.files.createDirectories parent with
    | mk result tree =>
      cases result with
      | error error => exact ⟨error, rfl⟩
      | ok _ => exact meets_write_log path _ _ _

/-- Two annotations of a module: texts with quotes, backslashes and control characters, numbers at the
ends of their range, and metadata in several levels. -/
def sampleNotes : List Annotation :=
  let location : Location := ⟨.ofText "a \"b\"/c.rego", 18446744073709551615, "data.ü"⟩
  [{ scope := .package, title := "\"\\/\x08\x1f\x7f\u2028😀", description := "", custom := []
     targetPath := ["data", "ü"], location },
    { scope := .rule, title := "tab\there", description := "a\nb"
      custom := [
        ("", .array []),
        ("a\"", .object [("k", .null), ("l", .array [.bool true, .string "\x00"])]),
        ("n", .array [
          .integer ⟨-9223372036854775808, by decide, by decide⟩, .integer ⟨0, by decide, by decide⟩,
          .integer ⟨18446744073709551615, by decide, by decide⟩])]
      targetPath := [], location }]

theorem Generation.writeListing_reads_back_sample :
    let registry := Registry.ofModules [⟨.ofText "r", .ofText "a \"b\"/c.rego", sampleNotes⟩]
    let before := Session.start .empty
    (∀ note ∈ registry.annotations, note.IsListable) ∧
      Annotation.listOfText? registry.listing = some registry.annotations ∧
      ∃ after, (writeListing registry (.ofText "out/list.json")).Yields before () after ∧
        after.files.read (.ofText "out/list.json") = .ok registry.listing := by
  intro registry before
  have listable : ∀ note ∈ registry.annotations, note.IsListable := by
    have file : (Path.ofText "a \"b\"/c.rego").text?.isSome := by decide
    show ∀ note ∈ sampleNotes, note.IsListable
    refine List.forall_mem_cons.2 ⟨⟨file, by decide, ?_, by simp, by decide⟩,
      List.forall_mem_singleton.2 ⟨file, by decide, ?_, by simp, by decide⟩⟩
    all_goals
      simp only [Value.Sorted, Value.MembersSorted, Value.ItemsSorted, Dictionary.Sorted,
        Dictionary.keys]
      decide +kernel
  have writes : (writeListing registry (.ofText "out/list.json")).succeedsWith before
      (fun _ _ => true) = true := by
    decide +kernel
  obtain ⟨readBack, meets⟩ := writeListing_reads_back listable (.ofText "out/list.json") before
  obtain ⟨_, after, yields, -⟩ := Action.exists_yields_of_succeedsWith writes
  exact ⟨listable, readBack, after, yields, meets.of_yields yields⟩

end PolicyPages
