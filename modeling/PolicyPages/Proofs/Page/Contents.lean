import PolicyPages.Proofs.Page.Reading

/-!
# What navigations and overviews are read as

A navigation and an overview have a part for collections and one for packages, each of which is left out
if it is empty (`headed`). If all texts are plain, each line of a navigation is an entry
(`forall₂_isEntry_navLines`), and an overview has a mark for each section, collection and package
(`readsAs_overviewLines_of_rows`). The rows are read by the names of the packages
(`readsAs_overviewLines`) or by their identifiers (`placedIds_overviewLines`).

So both pages name the same pages of packages (`linkedPages_eq`, `listedPages_eq`), the same identifiers of
collections (`linkedIds_collections`, `headingIds_collections`) and the same sections
(`linkedIds_sections`, `headingIds_sections`).
-/

namespace PolicyPages

open AsciiDoc (IsPlain)

/-! ### Plain documents -/

/-- The texts of an annotation that are put on pages with links are plain. -/
structure Annotation.PlainTexts (note : Annotation) : Prop where
  title : IsPlain note.title
  description : IsPlain note.description
  shortName : ∀ name ∈ note.shortName?, IsPlain name
  targetPath : ∀ segment ∈ note.targetPath, IsPlain segment

/-- A collection and its members have plain texts. -/
structure Listing.PlainTexts (listing : Listing) : Prop where
  collection : listing.collection.PlainTexts
  titles : ∀ member ∈ listing.members, IsPlain member.packageTitle
  rules : ∀ member ∈ listing.members, member.rule.PlainTexts

/-- The texts of a document that are put on pages with links are plain. -/
structure Document.PlainTexts (document : Document) : Prop where
  name : IsPlain document.topic.name
  qualifier : IsPlain document.topic.qualifier
  description : IsPlain document.topic.description
  packages : ∀ part ∈ document.packages, part.package.PlainTexts
  collections : ∀ listing ∈ document.collections, listing.PlainTexts

instance (note : Annotation) : Decidable note.PlainTexts :=
  decidable_of_iff (IsPlain note.title ∧ IsPlain note.description ∧
      (∀ name ∈ note.shortName?, IsPlain name) ∧ ∀ segment ∈ note.targetPath, IsPlain segment)
    ⟨fun ⟨title, description, shortName, targetPath⟩ => ⟨title, description, shortName, targetPath⟩,
      fun h => ⟨h.title, h.description, h.shortName, h.targetPath⟩⟩

instance (listing : Listing) : Decidable listing.PlainTexts :=
  decidable_of_iff (listing.collection.PlainTexts ∧
      (∀ member ∈ listing.members, IsPlain member.packageTitle) ∧
      ∀ member ∈ listing.members, member.rule.PlainTexts)
    ⟨fun ⟨collection, titles, rules⟩ => ⟨collection, titles, rules⟩,
      fun h => ⟨h.collection, h.titles, h.rules⟩⟩

instance (document : Document) : Decidable document.PlainTexts :=
  decidable_of_iff (IsPlain document.topic.name ∧ IsPlain document.topic.qualifier ∧
      IsPlain document.topic.description ∧
      (∀ part ∈ document.packages, part.package.PlainTexts) ∧
      ∀ listing ∈ document.collections, listing.PlainTexts)
    ⟨fun ⟨name, qualifier, description, packages, collections⟩ =>
      ⟨name, qualifier, description, packages, collections⟩,
      fun h => ⟨h.name, h.qualifier, h.description, h.packages, h.collections⟩⟩

namespace AsciiDoc

/-- The identifiers of the sections of an overview. -/
def sectionIds : List String :=
  [collectionsId, packagesId]

section

variable {note : Annotation} {name id : String}

theorem isPlain_packageName (plain : note.PlainTexts) (named : note.packageName = .ok name) :
    IsPlain name := by
  unfold Annotation.packageName at named
  split at named
  · rename_i last
    obtain rfl := Except.ok.inj named
    exact plain.targetPath _ (List.mem_of_getLast? last)
  · contradiction

/-- An identifier ends in the word for packages, or has a mark before the name of a rule. -/
theorem anchor_cases (anchored : note.anchor = .ok id) :
    (∃ name, note.packageName = .ok name ∧ id = name ++ "_package") ∨
      ∃ owner ∈ note.ownerName?, ∃ name ∈ note.shortName?, id = owner ++ "__" ++ name := by
  unfold Annotation.anchor at anchored
  split at anchored
  · unfold Annotation.packageAnchor at anchored
    cases named : note.packageName with
    | error violation => simp [named, Except.map] at anchored
    | ok name =>
      rw [named] at anchored
      exact .inl ⟨name, rfl, (Except.ok.inj anchored).symm⟩
  · unfold Annotation.ruleAnchor at anchored
    split at anchored
    · contradiction
    · contradiction
    · rename_i owner name owned named
      exact .inr ⟨owner, owned, name, named, (Except.ok.inj anchored).symm⟩

theorem isPlain_anchor (plain : note.PlainTexts) (anchored : note.anchor = .ok id) : IsPlain id := by
  rcases anchor_cases anchored with ⟨name, named, rfl⟩ | ⟨owner, owned, name, named, rfl⟩
  · exact isPlain_append.2 ⟨isPlain_packageName plain named, by decide⟩
  · have inTarget : owner ∈ note.targetPath :=
      List.dropLast_sublist _ |>.mem (List.mem_of_getLast? owned)
    exact isPlain_append.2 ⟨isPlain_append.2 ⟨plain.targetPath owner inTarget, by decide⟩,
      plain.shortName name named⟩

/-- No annotation has the identifier of a section. -/
theorem anchor_notMem_sectionIds (anchored : note.anchor = .ok id) : id ∉ sectionIds := by
  rcases anchor_cases anchored with ⟨name, -, rfl⟩ | ⟨owner, -, name, -, rfl⟩
  · have last : (name ++ "_package").toList.getLast? = some 'e' := by simp
    intro mem
    have other : ∀ id ∈ sectionIds, id.toList.getLast? ≠ some 'e' := by decide
    exact other _ mem last
  · have mark : "__".toList <:+: (owner ++ "__" ++ name).toList := by
      simp only [String.toList_append]
      exact List.infix_append ..
    intro mem
    have none : ∀ id ∈ sectionIds, Text.occursIn "__".toList id.toList = false := by decide
    have found := none _ mem
    rw [Text.occursIn_iff.2 mark] at found
    contradiction

/-- No identifiers of annotations are those of sections. -/
theorem notMem_sectionIds_of_mapM {α : Type} {of : α → Annotation} {xs : List α} {ids : List String}
    (anchored : xs.mapM (fun x => (of x).anchor) = .ok ids) : ∀ id ∈ ids, id ∉ sectionIds := by
  intro id mem
  obtain ⟨x, -, anchored⟩ := exists_mem_of_forall₂ (mapM_eq_ok_iff.1 anchored).flip mem
  exact anchor_notMem_sectionIds anchored

end

/-! ### Parts of a page -/

/-- What is put first, and the rest behind it; nothing at all if there is no rest. -/
def headed {α : Type} (first : α) (rest : List α) : List α :=
  if rest.isEmpty then [] else first :: rest

section

variable {α β : Type} {first : α} {rest : List α}

theorem forall₂_headed {R : α → β → Prop} {other : β} {others : List β} (related : R first other)
    (each : List.Forall₂ R rest others) : List.Forall₂ R (headed first rest) (headed other others) := by
  cases each with
  | nil => exact .nil
  | cons next later => exact .cons related (.cons next later)

theorem map_headed (f : α → β) : (headed first rest).map f = headed (f first) (rest.map f) := by
  cases rest <;> rfl

/-- What selects nothing at the head selects from the rest. -/
theorem filterMap_headed_of_none {f : α → Option β} (none : f first = none) :
    (headed first rest).filterMap f = rest.filterMap f := by
  cases rest with
  | nil => rfl
  | cons next later => exact List.filterMap_cons_none none

/-- What selects nothing from the rest selects the head, if there is a rest. -/
theorem filterMap_headed_of_some {f : α → Option β} {found : β} (some : f first = some found)
    (none : ∀ other ∈ rest, f other = none) :
    (headed first rest).filterMap f = if rest.isEmpty then [] else [found] := by
  cases rest with
  | nil => rfl
  | cons next later =>
    exact (List.filterMap_cons_some some).trans (congrArg _ (List.filterMap_eq_nil_iff.2 none))

theorem mem_headed_of_mem {x : α} (mem : x ∈ rest) : x ∈ headed first rest := by
  cases rest with
  | nil => contradiction
  | cons next later => exact List.mem_cons_of_mem _ mem

theorem mem_headed_iff {x : α} (notInRest : x ∉ rest) :
    x ∈ headed first rest ↔ x ∈ if rest.isEmpty then [] else [first] := by
  cases rest with
  | nil => rfl
  | cons next later => exact (List.mem_cons.trans (or_iff_left notInRest)).trans List.mem_singleton.symm

end

/-! ### Reading the navigation -/

/-- The entries of a navigation, for the identifiers of collections and the names of packages. -/
def navEntries (qualifier : String) (ids names : List String) : List Entry :=
  let overview := Page.overviewName qualifier
  ⟨1, overview, none⟩ ::
    (headed ⟨2, overview, some collectionsId⟩ (ids.map fun id => ⟨3, overview, some id⟩) ++
      headed ⟨2, overview, some packagesId⟩
        (names.map fun name => ⟨3, packagePage qualifier name, none⟩))

section

variable {document : Document} {lines : Lines} {overview qualifier line : String}

theorem isEntry_navCollection {listing : Listing} (plainOverview : IsPlain overview)
    (plain : listing.PlainTexts) (made : navCollection overview listing = .ok line) :
    ∃ id, listing.collection.anchor = .ok id ∧ IsEntry line ⟨3, overview, some id⟩ := by
  obtain ⟨id, anchored, returned⟩ := bind_eq_ok_iff.1 made
  obtain rfl := Except.ok.inj returned
  exact ⟨id, anchored,
    isEntry_id rfl plainOverview (isPlain_anchor plain.collection anchored) plain.collection.title⟩

theorem isPlain_packagePage {name : String} (plain : IsPlain qualifier) (plainName : IsPlain name) :
    IsPlain (packagePage qualifier name) := by
  have marks : IsPlain "packages/" ∧ IsPlain "_" ∧ IsPlain ".adoc" := by decide
  simp [packagePage, Page.packageName, plain, plainName, marks]

theorem isEntry_navPackage {part : Section} (plainQualifier : IsPlain qualifier)
    (plain : part.package.PlainTexts) (made : navPackage qualifier part = .ok line) :
    ∃ name, part.package.packageName = .ok name ∧
      IsEntry line ⟨3, packagePage qualifier name, none⟩ := by
  obtain ⟨name, named, returned⟩ := bind_eq_ok_iff.1 made
  obtain rfl := Except.ok.inj returned
  exact ⟨name, named,
    isEntry_page rfl (isPlain_packagePage plainQualifier (isPlain_packageName plain named))
      plain.title⟩

/-- Each line of a navigation is an entry, in order. -/
theorem forall₂_isEntry_navLines (plain : document.PlainTexts)
    (made : navLines document = .ok lines) :
    ∃ ids names, document.collections.mapM (·.collection.anchor) = .ok ids ∧
      document.packages.mapM (·.package.packageName) = .ok names ∧
      List.Forall₂ IsEntry lines (navEntries document.topic.qualifier ids names) := by
  have plainOverview : IsPlain (Page.overviewName document.topic.qualifier) :=
    isPlain_append.2 ⟨plain.qualifier, by decide⟩
  unfold navLines at made
  obtain ⟨collections, madeCollections, made⟩ := bind_eq_ok_iff.1 made
  obtain ⟨packages, madePackages, made⟩ := bind_eq_ok_iff.1 made
  obtain rfl := Except.ok.inj made
  obtain ⟨ids, anchored, eachCollection⟩ := exists_mapM_eq_ok_of_mapM_eq_ok
    (fun listing mem line => isEntry_navCollection plainOverview (plain.collections listing mem))
    madeCollections
  obtain ⟨names, named, eachPackage⟩ := exists_mapM_eq_ok_of_mapM_eq_ok
    (fun part mem line => isEntry_navPackage plain.qualifier (plain.packages part mem)) madePackages
  have plainName : IsPlain (document.topic.name ++ " Policy") :=
    isPlain_append.2 ⟨plain.name, by decide⟩
  refine ⟨ids, names, anchored, named, .cons (isEntry_page rfl plainOverview plainName)
    (List.rel_append (forall₂_headed ?_ ?_) (forall₂_headed ?_ ?_))⟩
  · exact isEntry_id rfl plainOverview (by decide) (by decide)
  · exact List.forall₂_map_right_iff.2 eachCollection.flip
  · exact isEntry_id rfl plainOverview (by decide) (by decide)
  · exact List.forall₂_map_right_iff.2 eachPackage.flip

end

/-! ### Reading the overview -/

/-- The marks of an overview, for the identifiers of collections and the marks of rows. -/
def overviewMarks (ids : List String) (rows : List Mark) : List Mark :=
  headed ⟨collectionsId, .heading 2⟩ (ids.map fun id => ⟨id, .heading 3⟩) ++
    headed ⟨packagesId, .heading 2⟩ rows

theorem map_id_overviewMarks (ids : List String) (rows : List Mark) :
    (overviewMarks ids rows).map Mark.id =
      headed collectionsId ids ++ headed packagesId (rows.map Mark.id) := by
  rw [overviewMarks, List.map_append, map_headed, map_headed, List.map_map]
  simp only [Function.comp_def, List.map_id']

/-- The mark of the row of a package. -/
structure IsRowOf (qualifier name : String) (mark : Mark) : Prop where
  spot : mark.spot = .row (Page.packageName qualifier name)
  id : mark.id ∉ sectionIds

section

variable {document : Document} {listing : Listing} {member : Member} {lines : Lines}
  {qualifier text : String}

theorem ended_memberLink (titled : IsPlain member.packageTitle) (plain : member.rule.PlainTexts)
    (linked : memberLink member = .ok text) : '\n' ∉ text.toList := by
  have plainLabel : IsPlain (member.packageTitle ++ ": " ++ member.rule.title) :=
    isPlain_append.2 ⟨isPlain_append.2 ⟨titled, by decide⟩, plain.title⟩
  unfold memberLink at linked
  dsimp only at linked
  split at linked
  · obtain rfl := Except.ok.inj linked
    exact plainLabel.notMem (by decide)
  · rename_i topic inTopic
    obtain ⟨id, anchored, linked⟩ := bind_eq_ok_iff.1 linked
    have plainId := isPlain_anchor plain anchored
    split at linked
    · obtain rfl := Except.ok.inj linked
      exact plainLabel.notMem (by decide)
    · rename_i owner owned
      obtain rfl := Except.ok.inj linked
      have inTarget : owner ∈ member.rule.targetPath :=
        List.dropLast_sublist _ |>.mem (List.mem_of_getLast? owned)
      have qualifiers : ∀ topic ∈ Topic.all, IsPlain topic.qualifier := by decide +kernel
      have plainPage := isPlain_packagePage (qualifiers topic (List.mem_of_find?_eq_some inTopic))
        (plain.targetPath owner inTarget)
      exact ended_link (by simp [plainPage.notMem, plainId.notMem]) (plainLabel.notMem (by decide))

theorem isUnmarked_memberLines {members : List Member}
    (titles : ∀ member ∈ members, IsPlain member.packageTitle)
    (rules : ∀ member ∈ members, member.rule.PlainTexts) (made : memberLines members = .ok lines) :
    ∀ line ∈ lines, IsUnmarked line := by
  unfold memberLines at made
  split at made
  · obtain rfl := Except.ok.inj made
    decide
  · obtain ⟨links, linked, made⟩ := bind_eq_ok_iff.1 made
    obtain rfl := Except.ok.inj made
    have fixed : ∀ line ∈ paragraph "Rules included:" ++ [""], IsUnmarked line := by decide
    intro line mem
    simp only [List.mem_append, List.mem_map] at mem fixed
    rcases mem with (first | ⟨text, inLinks, rfl⟩) | last
    · exact fixed line (.inl first)
    · obtain ⟨member, inMembers, linkedMember⟩ :=
        exists_mem_of_forall₂ (mapM_eq_ok_iff.1 linked).flip inLinks
      exact isUnmarked_item
        (ended_memberLink (titles member inMembers) (rules member inMembers) linkedMember)
    · exact fixed line (.inr last)

theorem isUnmarked_paragraph (plain : IsPlain text) : ∀ line ∈ paragraph text, IsUnmarked line := by
  have empty : IsUnmarked "" := by decide
  simpa [paragraph, empty] using isUnmarked_of_plain plain

theorem isUnmarked_description {note : Annotation} (plain : note.PlainTexts) :
    ∀ line ∈ description note, IsUnmarked line := by
  unfold description
  dsimp only
  split
  · simp
  · exact isUnmarked_paragraph plain.description.rstrip

/-- The block of a collection is read as its identifier. -/
theorem readsAs_collectionLines (plain : listing.PlainTexts)
    (made : collectionLines listing = .ok lines) :
    ∃ id, listing.collection.anchor = .ok id ∧ ReadsAs lines [⟨id, .heading 3⟩] := by
  unfold collectionLines at made
  obtain ⟨id, anchored, made⟩ := bind_eq_ok_iff.1 made
  obtain ⟨members, listed, made⟩ := bind_eq_ok_iff.1 made
  obtain rfl := Except.ok.inj made
  have title : IsUnmarked ("=== " ++ listing.collection.title) :=
    isUnmarked_of_plain (isPlain_append.2 ⟨by decide, plain.collection.title⟩)
  have empty : ∀ line ∈ [""], IsUnmarked line := by decide
  have heading : ReadsAs [blockId id, "=== " ++ listing.collection.title] [⟨id, .heading 3⟩] :=
    readsAs_heading (isPlain_anchor plain.collection anchored) title (by simp [level])
  have described := (heading.append (readsAs_of_unmarked empty)).append
    (readsAs_of_unmarked (isUnmarked_description plain.collection))
  exact ⟨id, anchored, described.append
    (readsAs_of_unmarked (isUnmarked_memberLines plain.titles plain.rules listed))⟩

/-- The row of a package is read as its identifier and its page. -/
theorem readsAs_packageRow {part : Section} (plainQualifier : IsPlain qualifier)
    (plain : part.package.PlainTexts) (made : packageRow qualifier part = .ok lines) :
    ∃ name id, part.package.packageName = .ok name ∧ part.package.anchor = .ok id ∧
      ReadsAs lines [⟨id, .row (Page.packageName qualifier name)⟩] := by
  unfold packageRow at made
  obtain ⟨name, named, made⟩ := bind_eq_ok_iff.1 made
  obtain ⟨id, anchored, made⟩ := bind_eq_ok_iff.1 made
  obtain rfl := Except.ok.inj made
  have plainName := isPlain_packageName plain named
  have plainPage : IsPlain (Page.packageName qualifier name) :=
    (isPlain_append.1 (isPlain_packagePage plainQualifier plainName)).2
  have cell : IsPlain ("a| " ++ Text.rstrip part.package.description) :=
    isPlain_append.2 ⟨by decide, plain.description.rstrip⟩
  exact ⟨name, id, named, anchored,
    (readsAs_row (isPlain_anchor plain anchored) plainPage plainName).append
      (readsAs_of_unmarked (isUnmarked_paragraph cell))⟩

/-- A section that is left out with its blocks. -/
theorem readsAs_headed {mark : Mark} {found : List Mark} {blocks : List Lines}
    (each : List.Forall₂ (fun mark block => ReadsAs block [mark]) found blocks)
    (read : ReadsAs lines (mark :: found)) :
    ReadsAs (if blocks.isEmpty then [] else lines) (headed mark found) := by
  cases each with
  | nil => exact readsAs_nil
  | cons _ _ => exact read

/-- The section on collections is read as the identifiers of its blocks. -/
theorem readsAs_onCollections {ids : List String} {blocks : List Lines}
    (each : List.Forall₂ (fun id block => ReadsAs block [⟨id, .heading 3⟩]) ids blocks) :
    ReadsAs
      (if blocks.isEmpty then []
      else blockId collectionsId :: paragraph "== Available rule collections" ++ blocks.flatten)
      (headed ⟨collectionsId, .heading 2⟩ (ids.map fun id => ⟨id, .heading 3⟩)) := by
  have each : List.Forall₂ (fun mark block => ReadsAs block [mark])
      (ids.map fun id => ⟨id, .heading 3⟩) blocks := List.forall₂_map_left_iff.2 each
  have heading : ReadsAs [blockId collectionsId, "== Available rule collections"]
      [⟨collectionsId, .heading 2⟩] := readsAs_heading (by decide) (by decide) (by decide)
  have empty : ∀ line ∈ [""], IsUnmarked line := by decide
  exact readsAs_headed each
    ((heading.append (readsAs_of_unmarked empty)).append (ReadsAs.flatten each))

/-- The section on packages is read as the marks of its rows. -/
theorem readsAs_onPackages {rows : List Mark} {table : List Lines}
    (each : List.Forall₂ (fun mark row => ReadsAs row [mark]) rows table) :
    ReadsAs
      (if table.isEmpty then []
      else
        blockId packagesId :: paragraph "== Available rule packages"
          ++ ["[cols=\"2,6\"]", "|===", "|*Package Name*"] ++ paragraph "|*Description*"
          ++ table.flatten ++ ["|==="])
      (headed ⟨packagesId, .heading 2⟩ rows) := by
  have heading : ReadsAs [blockId packagesId, "== Available rule packages"]
      [⟨packagesId, .heading 2⟩] := readsAs_heading (by decide) (by decide) (by decide)
  have lead : ∀ line ∈ ["", "[cols=\"2,6\"]", "|===", "|*Package Name*", "|*Description*", ""],
      IsUnmarked line := by decide
  have closing : IsUnmarked "|===" := by decide
  have read := ((heading.append (readsAs_of_unmarked lead)).append (ReadsAs.flatten each)).append
    closing.readsAs
  rw [List.append_nil] at read
  exact readsAs_headed each read

/-- An overview is read as its sections, the blocks of its collections and the rows of its packages, each
of which is read as one mark. -/
theorem readsAs_overviewLines_of_rows {γ : Type} {of : Section → Except ContractViolation γ}
    {R : γ → Mark → Prop} (plain : document.PlainTexts)
    (eachRow : ∀ part ∈ document.packages, ∀ row, packageRow document.topic.qualifier part = .ok row →
      ∃ value, of part = .ok value ∧ ∃ mark, R value mark ∧ ReadsAs row [mark])
    (made : overviewLines document = .ok lines) :
    ∃ ids values rows, document.collections.mapM (·.collection.anchor) = .ok ids ∧
      document.packages.mapM of = .ok values ∧ List.Forall₂ R values rows ∧
      ReadsAs lines (overviewMarks ids rows) := by
  unfold overviewLines at made
  obtain ⟨blocks, madeBlocks, made⟩ := bind_eq_ok_iff.1 made
  obtain ⟨table, madeTable, made⟩ := bind_eq_ok_iff.1 made
  obtain rfl := Except.ok.inj made
  obtain ⟨ids, anchored, eachBlock⟩ := exists_mapM_eq_ok_of_mapM_eq_ok
    (fun listing mem block => readsAs_collectionLines (plain.collections listing mem)) madeBlocks
  obtain ⟨values, valued, eachRow⟩ := exists_mapM_eq_ok_of_mapM_eq_ok eachRow madeTable
  obtain ⟨rows, rowsOf, eachRow⟩ := exists_forall₂_of_forall₂_exists eachRow
  have title : IsPlain ("= " ++ document.topic.name ++ " Policy") :=
    isPlain_append.2 ⟨isPlain_append.2 ⟨by decide, plain.name⟩, by decide⟩
  have opening := List.forall_mem_append.2
    ⟨isUnmarked_paragraph title, isUnmarked_paragraph plain.description⟩
  exact ⟨ids, values, rows, anchored, valued, rowsOf, ((readsAs_of_unmarked opening).append
    (readsAs_onCollections eachBlock)).append (readsAs_onPackages eachRow)⟩

/-- The rows of an overview are those of its packages, by their names. -/
theorem readsAs_overviewLines (plain : document.PlainTexts)
    (made : overviewLines document = .ok lines) :
    ∃ ids names rows, document.collections.mapM (·.collection.anchor) = .ok ids ∧
      document.packages.mapM (·.package.packageName) = .ok names ∧
      List.Forall₂ (IsRowOf document.topic.qualifier) names rows ∧
      ReadsAs lines (overviewMarks ids rows) := by
  refine readsAs_overviewLines_of_rows plain (fun part mem row made => ?_) made
  obtain ⟨name, id, named, anchored, read⟩ :=
    readsAs_packageRow plain.qualifier (plain.packages part mem) made
  exact ⟨name, named, _, ⟨rfl, anchor_notMem_sectionIds anchored⟩, read⟩

/-- The rows of an overview are those of its packages, by their identifiers. -/
theorem placedIds_overviewLines (plain : document.PlainTexts)
    (made : overviewLines document = .ok lines) :
    ∃ ids rowIds, document.collections.mapM (·.collection.anchor) = .ok ids ∧
      document.packages.mapM (·.package.anchor) = .ok rowIds ∧
      placedIds (textOf lines) = headed collectionsId ids ++ headed packagesId rowIds := by
  obtain ⟨ids, rowIds, rows, anchored, anchoredRows, same, read⟩ :=
    readsAs_overviewLines_of_rows (R := fun id mark => id = mark.id) plain
      (fun part mem row made => by
        obtain ⟨name, id, -, anchored, read⟩ :=
          readsAs_packageRow plain.qualifier (plain.packages part mem) made
        exact ⟨id, anchored, _, rfl, read⟩) made
  obtain rfl : rowIds = rows.map Mark.id :=
    List.forall₂_eq_eq_eq ▸ List.forall₂_map_right_iff.2 same
  refine ⟨ids, _, anchored, anchoredRows, ?_⟩
  rw [placedIds, read.marks_linesOf, map_id_overviewMarks]

end

/-! ### What the pages name -/

/-- The identifiers of the sections that are not empty. -/
def shownSections (ids names : List String) : List String :=
  (if ids.isEmpty then [] else [collectionsId]) ++ if names.isEmpty then [] else [packagesId]

section

variable {qualifier nav : String} {ids names : List String} {rows : List Mark}

theorem linkedPages_eq (read : entries nav = navEntries qualifier ids names) :
    linkedPages nav = names.map (Page.packageName qualifier) := by
  have shallow {depth : Nat} {page : String} {id : Option String} (apart : depth ≠ 3) :
      Entry.packagePage? ⟨depth, page, id⟩ = none := if_neg fun both => apart both.1
  have onCollection (page id : String) : Entry.packagePage? ⟨3, page, some id⟩ = none :=
    if_neg fun both => Option.some_ne_none id both.2
  have onPackage (name : String) : Entry.packagePage? ⟨3, packagePage qualifier name, none⟩ =
      some (Page.packageName qualifier name) := by
    have rest : Text.dropStart? "packages/".toList (packagePage qualifier name).toList =
        some (Page.packageName qualifier name).toList :=
      Text.dropStart?_eq_some_iff.2 (String.toList_append ..)
    rw [Entry.packagePage?, if_pos ⟨rfl, rfl⟩, rest, Option.map_some, String.ofList_toList]
  rw [linkedPages, read, navEntries, List.filterMap_cons_none (shallow (by decide)),
    List.filterMap_append, filterMap_headed_of_none (shallow (by decide)),
    filterMap_headed_of_none (shallow (by decide)), List.filterMap_map, List.filterMap_map]
  simp only [Function.comp_def, onCollection, onPackage, List.filterMap_none, List.nil_append]
  exact congrFun (List.filterMap_eq_map ..) names

section

variable {depth other : Nat} {page : String} {id : Option String}

theorem idOn?_of_ne (apart : other ≠ depth) :
    Entry.idOn? page depth ⟨other, page, id⟩ = none :=
  if_neg fun both => apart both.1

theorem idOn?_none (target : String) : Entry.idOn? page depth ⟨other, target, none⟩ = none :=
  ite_self none

theorem idOn?_self : Entry.idOn? page depth ⟨depth, page, id⟩ = id :=
  if_pos ⟨rfl, rfl⟩

end

theorem linkedIds_collections (read : entries nav = navEntries qualifier ids names) :
    linkedIds (Page.overviewName qualifier) 3 nav = ids := by
  rw [linkedIds, read, navEntries, List.filterMap_cons_none (idOn?_none _), List.filterMap_append,
    filterMap_headed_of_none (idOn?_of_ne (by decide)),
    filterMap_headed_of_none (idOn?_of_ne (by decide)), List.filterMap_map, List.filterMap_map]
  simp only [Function.comp_def, idOn?_self, idOn?_none, List.filterMap_none, List.append_nil]
  exact List.filterMap_some

theorem linkedIds_sections (read : entries nav = navEntries qualifier ids names) :
    linkedIds (Page.overviewName qualifier) 2 nav = shownSections ids names := by
  have onCollections : ∀ entry ∈ ids.map fun id => (⟨3, Page.overviewName qualifier, some id⟩ : Entry),
      Entry.idOn? (Page.overviewName qualifier) 2 entry = none :=
    List.forall_mem_map.2 fun _ _ => idOn?_of_ne (by decide)
  have onPackages : ∀ entry ∈ names.map fun name => (⟨3, packagePage qualifier name, none⟩ : Entry),
      Entry.idOn? (Page.overviewName qualifier) 2 entry = none :=
    List.forall_mem_map.2 fun _ _ => idOn?_none _
  rw [linkedIds, read, navEntries, List.filterMap_cons_none (idOn?_none _), List.filterMap_append,
    filterMap_headed_of_some idOn?_self onCollections,
    filterMap_headed_of_some idOn?_self onPackages, List.isEmpty_map, List.isEmpty_map]
  rfl

variable {overview : String}

theorem filterMap_page?_rows (rowsOf : List.Forall₂ (IsRowOf qualifier) names rows) :
    rows.filterMap Mark.page? = names.map (Page.packageName qualifier) := by
  induction rowsOf with
  | nil => rfl
  | cons first _ ih =>
    rw [List.filterMap_cons_some (by rw [Mark.page?, first.spot]), ih, List.map_cons]

theorem headingId?_of_mem_rows {level : Nat} (rowsOf : List.Forall₂ (IsRowOf qualifier) names rows) :
    ∀ mark ∈ rows, mark.headingId? level = none := by
  intro mark mem
  obtain ⟨name, -, row⟩ := exists_mem_of_forall₂ rowsOf.flip mem
  rw [Mark.headingId?, row.spot, if_neg Spot.noConfusion]

theorem headingId?_of_ne {level other : Nat} {id : String} (apart : other ≠ level) :
    Mark.headingId? level ⟨id, .heading other⟩ = none :=
  if_neg fun same => apart (Spot.heading.inj same)

theorem headingId?_self {level : Nat} {id : String} :
    Mark.headingId? level ⟨id, .heading level⟩ = some id :=
  if_pos rfl

theorem listedPages_eq (read : marks (linesOf overview) = overviewMarks ids rows)
    (rowsOf : List.Forall₂ (IsRowOf qualifier) names rows) :
    listedPages overview = names.map (Page.packageName qualifier) := by
  have onHeading (id : String) (level : Nat) : Mark.page? ⟨id, .heading level⟩ = none := rfl
  rw [listedPages, read, overviewMarks, List.filterMap_append, filterMap_headed_of_none rfl,
    filterMap_headed_of_none rfl, filterMap_page?_rows rowsOf, List.filterMap_map]
  simp only [Function.comp_def, onHeading, List.filterMap_none, List.nil_append]

theorem headingIds_collections (read : marks (linesOf overview) = overviewMarks ids rows)
    (rowsOf : List.Forall₂ (IsRowOf qualifier) names rows) : headingIds 3 overview = ids := by
  rw [headingIds, read, overviewMarks, List.filterMap_append,
    filterMap_headed_of_none (headingId?_of_ne (by decide)),
    filterMap_headed_of_none (headingId?_of_ne (by decide)),
    List.filterMap_eq_nil_iff.2 (headingId?_of_mem_rows rowsOf), List.filterMap_map]
  simp only [Function.comp_def, headingId?_self, List.append_nil]
  exact List.filterMap_some

theorem headingIds_sections (read : marks (linesOf overview) = overviewMarks ids rows)
    (rowsOf : List.Forall₂ (IsRowOf qualifier) names rows) :
    headingIds 2 overview = shownSections ids names := by
  have onCollections : ∀ mark ∈ ids.map fun id => (⟨id, .heading 3⟩ : Mark),
      mark.headingId? 2 = none :=
    List.forall_mem_map.2 fun _ _ => headingId?_of_ne (by decide)
  have rowsEmpty : rows.isEmpty = names.isEmpty := by cases rowsOf <;> rfl
  rw [headingIds, read, overviewMarks, List.filterMap_append,
    filterMap_headed_of_some headingId?_self onCollections,
    filterMap_headed_of_some headingId?_self (headingId?_of_mem_rows rowsOf), List.isEmpty_map,
    rowsEmpty]
  rfl

/-- The identifier of a section is placed just if the section is shown. -/
theorem mem_placedIds_iff (read : marks (linesOf overview) = overviewMarks ids rows)
    (rowsOf : List.Forall₂ (IsRowOf qualifier) names rows) (anchors : ∀ id ∈ ids, id ∉ sectionIds)
    {id : String} (isSection : id ∈ sectionIds) :
    id ∈ placedIds overview ↔ id ∈ shownSections ids names := by
  have rowsEmpty : rows.isEmpty = names.isEmpty := by cases rowsOf <;> rfl
  have notCollection : id ∉ ids := fun mem => anchors id mem isSection
  have notRow : id ∉ rows.map Mark.id := by
    intro mem
    obtain ⟨mark, inRows, rfl⟩ := List.mem_map.1 mem
    obtain ⟨name, -, row⟩ := exists_mem_of_forall₂ rowsOf.flip inRows
    exact row.id isSection
  rw [placedIds, read, map_id_overviewMarks, shownSections, List.mem_append, List.mem_append, mem_headed_iff notCollection,
    mem_headed_iff notRow, List.isEmpty_map, rowsEmpty]

end

end AsciiDoc

end PolicyPages
