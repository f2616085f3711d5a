import PolicyPages.Proofs.Document.Completeness
import PolicyPages.Proofs.Files.Below
import PolicyPages.Proofs.Files.Directories
import PolicyPages.Proofs.Page.Places
import PolicyPages.Proofs.Site

/-!
# Pages that stay

Writing a file changes one place, which its path still leads to when the run has ended, and what comes
later spares a page unless one of its paths leads to the same place (`Site.Spares`,
`Site.read_of_yields_writeTopics`). Where no link lies below the output, only equal paths lead to one
place (`Site.read_of_count_eq_one`), and only packages of one topic with one key have equal paths
(`Site.components_packagePage_eq_iff`).
-/

namespace PolicyPages

open Files (Content Place Tree)

/-! ### Names of extracted packages -/

/-- The packages of extracted modules have names without dots. -/
theorem named_of_mem_packages {modules : List AnnotatedModule}
    (extracted : ∀ module ∈ modules, module.IsExtracted) {membership : Membership} {topic : Topic}
    {part : Section}
    (mem : part ∈ (Document.build (.ofModules modules) membership topic).packages) :
    part.Named := by
  obtain ⟨module, memModule, inModule, isPackage⟩ := exists_module_of_section mem
  obtain ⟨segments, ofPackage⟩ := (extracted module memModule).exists_ofPackage
  have target := ofPackage.targetPath_package inModule isPackage
  have last := List.getLast?_eq_some_getLast (List.cons_ne_nil Source.rootSegment segments)
  have named : part.package.packageName =
      .ok ((Source.rootSegment :: segments).getLast (List.cons_ne_nil _ _)) := by
    unfold Annotation.packageName
    rw [target, last]
  refine ⟨_, named, ?_⟩
  rcases List.mem_cons.1 (List.getLast_mem (List.cons_ne_nil Source.rootSegment segments))
    with root | inSegments
  · rw [root]
    decide
  · exact (ofPackage.plain _ inSegments).noDot

/-! ### Documents that need no sorting -/

namespace Document

/-- The document of a topic with its parts in the order in which they were assembled. -/
def assembled (registry : Registry) (membership : Membership) (topic : Topic) : Document where
  topic := topic
  packages := (Assembly.ofTopic registry topic).sections.map fun entry => entry.2.sorted
  collections := (Assembly.ofTopic registry topic).collections.map fun note =>
    ⟨note, membership.members note.title⟩

/-- Packages and collections are in the order of their titles. -/
def InOrder (document : Document) : Prop :=
  document.packages.Pairwise (fun a b => a.package.title ≤ b.package.title) ∧
    document.collections.Pairwise fun a b => a.collection.title ≤ b.collection.title

instance (document : Document) : Decidable document.InOrder :=
  inferInstanceAs (Decidable (_ ∧ _))

theorem build_eq_assembled {registry : Registry} {membership : Membership} {topic : Topic}
    (inOrder : (assembled registry membership topic).InOrder) :
    build registry membership topic = assembled registry membership topic := by
  obtain ⟨packages, collections⟩ := inOrder
  have packages := List.mergeSort_of_pairwise (packages.imp fun h => decide_eq_true h)
  have collections := List.mergeSort_of_pairwise (collections.imp fun h => decide_eq_true h)
  exact congrArg₂ (Document.mk topic) packages collections

theorem documents_eq_assembled {registry : Registry} {membership : Membership}
    (inOrder : ∀ topic ∈ Topic.all, (assembled registry membership topic).InOrder) :
    Generation.documents registry membership = Topic.all.map (assembled registry membership) :=
  List.map_congr_left fun topic mem => build_eq_assembled (inOrder topic mem)

end Document

namespace Site

/-! ### What writing spares -/

/-- Files are only added, and a file keeps its content, unless one of the paths leads to its place in
the end. -/
def Spares (paths : List Path) (before after : Session) : Prop :=
  before.files.Grows after.files ∧ ∀ (last : Tree) (place : Place) (content : Content),
    after.files.Grows last → (∀ path ∈ paths, ¬ last.LeadsTo .write path place) →
    before.files.at? place = some (.file content) → after.files.at? place = some (.file content)

section

variable {paths : List Path} {out : Path} {renderer : PageRenderer}

theorem spares_refl (session : Session) : Spares paths session session :=
  ⟨.refl _, fun _ _ _ _ _ there => there⟩

theorem spares_trans (a b c : Session) (first : Spares paths a b) (second : Spares paths b c) :
    Spares paths a c :=
  ⟨first.1.trans second.1, fun last place content grows elsewhere there =>
    second.2 last place content grows elsewhere
      (first.2 last place content (second.1.trans grows) elsewhere there)⟩

theorem spares_log (events : List Log.Event) :
    (Action.log events : Action Failure Unit).Relates (Spares paths) := by
  intro before value after yields
  obtain ⟨-, rfl⟩ := Prod.mk.inj (yields.symm.trans (Action.outcome_log events before))
  exact spares_refl before

theorem spares_createDirectories (failure : Files.Error → Failure) (path : Path) :
    (Action.createDirectories failure path).Relates (Spares paths) := by
  intro before value after yields
  have outcome := yields.symm.trans (Action.outcome_createDirectories failure path before)
  rcases made : before.files.createDirectories path with ⟨_ | _, tree⟩
  · simp [made] at outcome
  · rw [made] at outcome
    obtain ⟨-, rfl⟩ := Prod.mk.inj outcome
    have adds := Tree.addsDirectories_createDirectories made
    refine ⟨adds.grows, fun _ place content _ _ there => ?_⟩
    rcases adds.at? place with same | ⟨none, -⟩
    · exact same.trans there
    · rw [there] at none
      contradiction

/-- A file is written at a place that its path leads to in the end. -/
theorem spares_write {failure : Files.Error → Failure} {path : Path} {text : String}
    (mem : path ∈ paths) : (Action.write failure path text).Relates (Spares paths) := by
  intro before value after yields
  obtain ⟨tree, written, rfl⟩ := Action.yields_write_iff.1 yields
  refine ⟨Tree.grows_of_write written, fun last place content grows elsewhere there => ?_⟩
  obtain ⟨target, below, rfl, stays⟩ := Tree.leadsTo_of_write written
  have apart : place ≠ target := by
    rintro rfl
    exact elsewhere path mem (stays last grows).1
  exact (Tree.at?_put_of_ne below apart).trans there

theorem spares_writePage {page : PlannedPage} (mem : page.path ∈ paths) :
    (writePage page).Relates (Spares paths) := by
  rw [writePage_eq]
  cases page.text with
  | error failure => exact Action.relates_throw _
  | ok text => exact (spares_write mem).bind spares_trans fun _ => Action.relates_pure spares_refl _

theorem spares_writePages {pages : List PlannedPage} (mem : ∀ page ∈ pages, page.path ∈ paths) :
    (pages.mapM writePage).Relates (Spares paths) :=
  Action.relates_mapM spares_trans spares_refl fun page inPages => spares_writePage (mem page inPages)

theorem spares_writeTopic {document : Document}
    (mem : ∀ page ∈ pages out renderer document, page.path ∈ paths) :
    (writeTopic out renderer document).Relates (Spares paths) := by
  rw [writeTopic_eq]
  refine Action.Relates.bind spares_trans
    (Action.relates_forIn spares_trans spares_refl fun _ _ => spares_createDirectories _ _) fun _ => ?_
  refine (spares_writePages mem).bind spares_trans fun _ => ?_
  exact (spares_log _).bind spares_trans fun _ => Action.relates_pure spares_refl _

theorem spares_writeTopics {documents : List Document}
    (mem : ∀ page ∈ documents.flatMap (pages out renderer), page.path ∈ paths) :
    (documents.mapM (writeTopic out renderer)).Relates (Spares paths) :=
  Action.relates_mapM spares_trans spares_refl fun _ inDocuments =>
    spares_writeTopic fun page inPages =>
      mem page (List.mem_flatMap.2 ⟨_, inDocuments, inPages⟩)

end

/-! ### What stays -/

/-- What a list has once is not behind it. -/
theorem ne_of_count_map_eq_one {α β : Type} [BEq β] [LawfulBEq β] {f : α → β} {xs ys : List α} {x : α}
    (once : ((xs ++ x :: ys).map f).count (f x) = 1) : ∀ y ∈ ys, f y ≠ f x := by
  intro y mem same
  rw [List.map_append, List.count_append, List.map_cons, List.count_cons_self] at once
  have none : (ys.map f).count (f x) = 0 := by omega
  exact List.count_eq_zero.1 none (same ▸ List.mem_map_of_mem mem)

section

variable {out : Path} {renderer : PageRenderer} {before after : Session}
  {front back : List Document} {document : Document} {page : PlannedPage}
  {earlier later : List PlannedPage} {written : List (List Path)} {paths : List Path}

/-- A page that is written stays, as long as what follows spares its place. -/
theorem read_of_yields_writePage {path : Path} {next : Session}
    (run : (writePage page).Yields before path next) (spares : Spares paths next after)
    (elsewhere : ∀ place, after.files.LeadsTo .write page.path place →
      after.files.kind? place = some .file →
      ∀ path ∈ paths, ¬ after.files.LeadsTo .write path place) :
    ∃ text, page.text = .ok text ∧ after.files.read page.path = .ok text := by
  rw [writePage_eq] at run
  cases rendered : page.text with
  | error failure =>
    rw [rendered] at run
    exact absurd run Action.not_yields_throw
  | ok text =>
    rw [rendered] at run
    obtain ⟨_, between, wrote, returned⟩ := Action.yields_bind_iff.1 run
    obtain ⟨-, rfl⟩ := Action.yields_pure_iff.1 returned
    obtain ⟨tree, put, rfl⟩ := Action.yields_write_iff.1 wrote
    obtain ⟨place, below, rfl, stays⟩ := Tree.leadsTo_of_write put
    obtain ⟨leadsTo, file⟩ := stays _ spares.1
    have there := spares.2 after.files place (.text text) (.refl _) (elsewhere place leadsTo file)
      (Tree.at?_put_self below)
    exact ⟨text, rfl, Tree.read_of_leadsTo leadsTo there⟩

/-- After all documents are written, a page is on disk if no later page leads to its place. -/
theorem read_of_yields_writeTopics
    (run : ((front ++ document :: back).mapM (writeTopic out renderer)).Yields before written after)
    (inDocument : pages out renderer document = earlier ++ page :: later)
    (elsewhere : ∀ place, after.files.LeadsTo .write page.path place →
      after.files.kind? place = some .file →
      ∀ other ∈ later ++ back.flatMap (pages out renderer),
        ¬ after.files.LeadsTo .write other.path place) :
    ∃ text, page.text = .ok text ∧ after.files.read page.path = .ok text := by
  obtain ⟨_, _, _, -, -, run⟩ := Action.yields_mapM_append_iff.1 run
  obtain ⟨_, _, _, -, wroteDocument, wroteBack⟩ := Action.yields_mapM_cons_iff.1 run
  rw [writeTopic_eq] at wroteDocument
  obtain ⟨_, _, -, run⟩ := Action.yields_bind_iff.1 wroteDocument
  obtain ⟨_, _, wrotePages, logged⟩ := Action.yields_bind_iff.1 run
  rw [inDocument] at wrotePages
  obtain ⟨_, _, _, -, -, run⟩ := Action.yields_mapM_append_iff.1 wrotePages
  obtain ⟨_, _, _, -, wrotePage, wroteLater⟩ := Action.yields_mapM_cons_iff.1 run
  -- Behind the page come the later pages of its document, an event, and the other documents.
  let others := later ++ back.flatMap (pages out renderer)
  have spares : Spares (others.map PlannedPage.path) _ after :=
    spares_trans _ _ _ (spares_writePages (fun other mem => List.mem_map_of_mem
        (List.mem_append_left _ mem)) _ _ _ wroteLater)
      (spares_trans _ _ _ (((spares_log _).bind spares_trans fun _ =>
          Action.relates_pure spares_refl _) _ _ _ logged)
        (spares_writeTopics (fun other mem => List.mem_map_of_mem
          (List.mem_append_right _ mem)) _ _ _ wroteBack))
  refine read_of_yields_writePage wrotePage spares fun place leadsTo file => ?_
  exact List.forall_mem_map.2 (elsewhere place leadsTo file)

/-! ### Paths that are reported -/

theorem flatten_of_yields_writeTopics {documents : List Document}
    (run : (documents.mapM (writeTopic out renderer)).Yields before written after) :
    written.flatten = (documents.flatMap (pages out renderer)).map PlannedPage.path := by
  rw [eq_of_yields_writeTopics run, List.map_flatMap, List.flatMap]

variable {modules : List AnnotatedModule} {membership : Membership}

/-- The pages of extracted modules are at the names of their topic. -/
theorem forall₂_pageAt_build (extracted : ∀ module ∈ modules, module.IsExtracted) {topic : Topic}
    (mem : topic ∈ Topic.all) :
    let document := Document.build (.ofModules modules) membership topic
    List.Forall₂ (fun page below => PageAt out page.path below) (pages out renderer document)
      (Page.belows topic document.packages) :=
  forall₂_pageAt mem fun _ inDocument => named_of_mem_packages extracted inDocument

theorem forall₂_pageAt_planned (extracted : ∀ module ∈ modules, module.IsExtracted) :
    List.Forall₂ (fun page below => PageAt out page.path below)
      ((Generation.documents (.ofModules modules) membership).flatMap (pages out renderer))
      (Topic.all.flatMap fun topic =>
        Page.belows topic (Document.build (.ofModules modules) membership topic).packages) := by
  rw [Generation.documents, List.flatMap_map]
  have topics : List.Forall₂ (fun a b => a = b ∧ a ∈ Topic.all) Topic.all Topic.all :=
    List.forall₂_same.2 fun topic mem => ⟨rfl, mem⟩
  refine List.rel_flatMap topics ?_
  rintro topic _ ⟨rfl, mem⟩
  exact forall₂_pageAt_build extracted mem

/-- All pages are at different paths just when no topic has two packages with one key. -/
theorem nodup_components_planned_iff (extracted : ∀ module ∈ modules, module.IsExtracted) :
    (((Generation.documents (.ofModules modules) membership).flatMap (pages out renderer)).map
        (Path.components ∘ PlannedPage.path)).Nodup ↔
      ∀ topic ∈ Topic.all,
        ((Document.build (.ofModules modules) membership topic).packages.map
          Section.pageKey).Nodup := by
  let components (below : List FileName) := out.components ++ below.map Path.Component.name
  have each := (@forall₂_pageAt_planned out renderer modules membership extracted).imp
    fun (page : PlannedPage) below (h : PageAt out page.path below) => h.isBelow.components
  have same : List.Forall₂ (· = ·) (List.map (Path.components ∘ PlannedPage.path) _)
      (List.map components _) :=
    List.forall₂_map_left_iff.2 (List.forall₂_map_right_iff.2 each)
  rw [List.forall₂_eq_eq_eq] at same
  have injective : Function.Injective components :=
    (List.append_right_injective _).comp (List.map_injective_iff.2 fun _ _ => Path.Component.name.inj)
  rw [same, List.nodup_map_iff injective, Page.nodup_flatMap_belows_iff]

/-- Pages of packages are at one path just if they are of one topic and the packages have one key. -/
theorem components_packagePage_eq_iff (extracted : ∀ module ∈ modules, module.IsExtracted)
    {topic other : Topic} (mem : topic ∈ Topic.all) (mem' : other ∈ Topic.all) {part another : Section}
    (inTopic : part ∈ (Document.build (.ofModules modules) membership topic).packages)
    (inOther : another ∈ (Document.build (.ofModules modules) membership other).packages) :
    (packagePage out renderer (.build (.ofModules modules) membership topic) part).path.components =
        (packagePage out renderer (.build (.ofModules modules) membership other)
          another).path.components ↔
      topic = other ∧ part.pageKey = another.pageKey := by
  have first : PageAt out _ _ := @pageAt_packagePage out
    (Document.build (.ofModules modules) membership topic) renderer mem part
    (named_of_mem_packages extracted inTopic)
  have second : PageAt out _ _ := @pageAt_packagePage out
    (Document.build (.ofModules modules) membership other) renderer mem' another
    (named_of_mem_packages extracted inOther)
  exact (first.components_eq_iff second).trans (Page.belowPackage_eq_iff mem mem')

/-- The navigation and the overview of a topic are not at the path of a package, whatever its topic. -/
theorem components_ne_packagePage (extracted : ∀ module ∈ modules, module.IsExtracted)
    {topic other : Topic} (mem : topic ∈ Topic.all) (mem' : other ∈ Topic.all) {part : Section}
    (inOther : part ∈ (Document.build (.ofModules modules) membership other).packages)
    (unpackaged : page ∈ (pages out renderer
      (.build (.ofModules modules) membership topic)).take 2) :
    page.path.components ≠
      (packagePage out renderer (.build (.ofModules modules) membership other) part).path.components := by
  have there : PageAt out _ _ := @pageAt_packagePage out
    (Document.build (.ofModules modules) membership other) renderer mem' part
    (named_of_mem_packages extracted inOther)
  obtain ⟨nav, overview⟩ := isFixed_pages topic mem
  simp only [pages, List.take_succ_cons, List.take_zero, List.mem_cons, List.not_mem_nil,
    or_false] at unpackaged
  rcases unpackaged with rfl | rfl
  · have here := nav.pageAt (extends_partialsDirectory out)
    exact fun same => Page.belowNav_ne_belowPackage topic other _ ((here.components_eq_iff there).1 same)
  · have here := overview.pageAt (extends_pagesDirectory out)
    exact fun same =>
      Page.belowOverview_ne_belowPackage mem other _ ((here.components_eq_iff there).1 same)

/-- A page whose path is reported once is on disk, if there are no links. -/
theorem read_of_count_eq_one (extracted : ∀ module ∈ modules, module.IsExtracted)
    (run : ((Generation.documents (.ofModules modules) membership).mapM
      (writeTopic out renderer)).Yields before written after)
    (noLinks : ∀ goal, after.files.Reaches out goal → after.files.NoLinksBelow goal)
    (planned : page ∈ (Generation.documents (.ofModules modules) membership).flatMap
      (pages out renderer))
    (once : (written.flatten.map Path.components).count page.path.components = 1) :
    ∃ text, page.text = .ok text ∧ after.files.read page.path = .ok text := by
  have pageAt {page : PlannedPage} (planned : page ∈
      (Generation.documents (.ofModules modules) membership).flatMap (pages out renderer)) :
      ∃ below, PageAt out page.path below := by
    obtain ⟨below, -, there⟩ := exists_mem_of_forall₂ (forall₂_pageAt_planned extracted) planned
    exact ⟨below, there⟩
  rw [flatten_of_yields_writeTopics run, List.map_map] at once
  obtain ⟨document, inDocuments, inPages⟩ := List.mem_flatMap.1 planned
  obtain ⟨front, back, documents⟩ := List.append_of_mem inDocuments
  obtain ⟨earlier, later, inDocument⟩ := List.append_of_mem inPages
  have whole : (Generation.documents (.ofModules modules) membership).flatMap (pages out renderer) =
      (front.flatMap (pages out renderer) ++ earlier) ++
        page :: (later ++ back.flatMap (pages out renderer)) := by
    rw [documents, List.flatMap_append, List.flatMap_cons, inDocument]
    simp only [List.append_assoc, List.cons_append]
  rw [documents] at run
  -- A later page that leads to the same place has the same names, so the path is reported twice.
  refine read_of_yields_writeTopics run inDocument fun place leadsTo file other behind leadsThere => ?_
  have plannedOther : other ∈ (Generation.documents (.ofModules modules) membership).flatMap
      (pages out renderer) := by
    rw [whole]
    exact List.mem_append_right _ (List.mem_cons_of_mem _ behind)
  obtain ⟨below, here⟩ := pageAt planned
  obtain ⟨another, there⟩ := pageAt plannedOther
  obtain ⟨goal, reaches⟩ := leadsTo.reaches file here.isBelow here.nonempty here.named
  have atNames := leadsTo.place_eq reaches (noLinks goal reaches) here.isBelow here.nonempty here.named
  rw [leadsThere.place_eq reaches (noLinks goal reaches) there.isBelow there.nonempty there.named,
    List.append_cancel_left_eq] at atNames
  rw [whole] at once
  exact @ne_of_count_map_eq_one _ _ _ _ (Path.components ∘ PlannedPage.path) _ _ _ once other behind
    ((there.components_eq_iff here).2 atNames)

/-- Pages of packages are at one path just if they are of one topic and have one key, and no other page is
there; so pages are at different paths just when no topic has two packages with one key. Each page whose
path is reported once is on disk, if there are no links. -/
theorem pages_apart_and_kept (extracted : ∀ module ∈ modules, module.IsExtracted)
    (run : ((Generation.documents (.ofModules modules) membership).mapM
      (writeTopic out renderer)).Yields before written after) :
    let document := Document.build (.ofModules modules) membership
    (∀ topic ∈ Topic.all, ∀ other ∈ Topic.all,
      ∀ part ∈ (document topic).packages, ∀ another ∈ (document other).packages,
        (packagePage out renderer (document topic) part).path.components =
            (packagePage out renderer (document other) another).path.components ↔
          topic = other ∧ part.pageKey = another.pageKey) ∧
    (∀ topic ∈ Topic.all, ∀ other ∈ Topic.all,
      ∀ page ∈ (pages out renderer (document topic)).take 2, ∀ part ∈ (document other).packages,
        page.path.components ≠ (packagePage out renderer (document other) part).path.components) ∧
    ((written.flatten.map Path.components).Nodup ↔
      ∀ topic ∈ Topic.all, ((document topic).packages.map Section.pageKey).Nodup) ∧
    ((∀ goal, after.files.Reaches out goal → after.files.NoLinksBelow goal) →
      ∀ topic ∈ Topic.all, ∀ page ∈ pages out renderer (document topic),
        (written.flatten.map Path.components).count page.path.components = 1 →
        ∃ text, page.text = .ok text ∧ after.files.read page.path = .ok text) := by
  intro document
  refine ⟨fun topic mem other mem' part inTopic another inOther =>
    components_packagePage_eq_iff extracted mem mem' inTopic inOther,
    fun topic mem other mem' page unpackaged part inOther =>
      components_ne_packagePage extracted mem mem' inOther unpackaged, ?_, ?_⟩
  · rw [flatten_of_yields_writeTopics run, List.map_map]
    exact nodup_components_planned_iff extracted
  · intro noLinks topic mem page inPages once
    have inDocuments : document topic ∈ Generation.documents (.ofModules modules) membership :=
      List.mem_map_of_mem mem
    exact read_of_count_eq_one extracted run noLinks
      (List.mem_flatMap.2 ⟨document topic, inDocuments, inPages⟩) once

end

/-! ### Samples -/

/-- Modules of one topic, each of which declares a package. -/
def samplePackages (names : List String) : List AnnotatedModule :=
  names.filterMap fun name =>
    AnnotatedModule.ofText? (.ofText ("policy/release/" ++ name ++ ".rego"))
      ("# METADATA\n# title: " ++ name ++ "\npackage " ++ name ++ "\n")

theorem isExtractedInPlace_of_mem_samplePackages (names : List String) :
    ∀ module ∈ samplePackages names, module.IsExtractedInPlace := by
  intro module mem
  obtain ⟨name, -, accepted⟩ := List.mem_filterMap.1 mem
  exact AnnotatedModule.isExtractedInPlace_of_ofText? accepted

/-- The document of a topic for the packages, before it is sorted. -/
def assembledSample (names : List String) : Topic → Document :=
  Document.assembled (.ofModules (samplePackages names))
    (.ofRegistry (.ofModules (samplePackages names)))

/-- Writes documents to one directory. -/
def writeSample (documents : List Document) : Action Failure (List (List Path)) :=
  documents.mapM (writeTopic (.ofText "out") (AsciiDoc.renderer none))

theorem yields_sample {names : List String} {before after : Session} {written : List (List Path)}
    (inOrder : ∀ topic ∈ Topic.all, (assembledSample names topic).InOrder)
    (run : (writeSample (Topic.all.map (assembledSample names))).Yields before written after) :
    ((Generation.documents (.ofModules (samplePackages names))
      (.ofRegistry (.ofModules (samplePackages names)))).mapM
        (writeTopic (.ofText "out") (AsciiDoc.renderer none))).Yields before written after := by
  rw [Document.documents_eq_assembled inOrder]
  exact run

/-- The pages of two packages are at different paths, and on disk. -/
theorem pages_apart_and_kept_sample :
    let registry := Registry.ofModules (samplePackages ["a", "b.c"])
    let renderer := AsciiDoc.renderer none
    ∃ written after, ((Generation.documents registry (.ofRegistry registry)).mapM
        (writeTopic (.ofText "out") renderer)).Yields (.start .empty) written after ∧
      (written.flatten.map Path.components).Nodup ∧
      ∀ topic ∈ Topic.all,
        ∀ page ∈ pages (.ofText "out") renderer (.build registry (.ofRegistry registry) topic),
          ∃ text, page.text = .ok text ∧ after.files.read page.path = .ok text := by
  intro registry renderer
  have evaluated : (∀ topic ∈ Topic.all, (assembledSample ["a", "b.c"] topic).InOrder) ∧
      (writeSample (Topic.all.map (assembledSample ["a", "b.c"]))).succeedsWith (.start .empty)
        (fun written after =>
          (written.flatten.map Path.components).Nodup && after.files.isLinkFree) = true := by
    decide +kernel
  obtain ⟨inOrder, wrote⟩ := evaluated
  obtain ⟨written, after, run, test⟩ := Action.exists_yields_of_succeedsWith wrote
  obtain ⟨apart, linkFree⟩ := Bool.and_eq_true_iff.1 test
  have apart := of_decide_eq_true apart
  have run := yields_sample inOrder run
  have extracted : ∀ module ∈ samplePackages ["a", "b.c"], module.IsExtracted :=
    fun module mem => (isExtractedInPlace_of_mem_samplePackages _ module mem).isExtracted
  obtain ⟨-, -, -, kept⟩ := pages_apart_and_kept extracted run
  refine ⟨written, after, run, apart, fun topic mem page inPages => ?_⟩
  refine kept (fun goal _ => Tree.noLinksBelow_of_isLinkFree linkFree goal) topic mem page inPages ?_
  refine List.count_eq_one_of_mem apart (List.mem_map_of_mem ?_)
  rw [flatten_of_yields_writeTopics run]
  exact List.mem_map_of_mem (List.mem_flatMap.2 ⟨_, List.mem_map_of_mem mem, inPages⟩)

/-- The page of one package is a link to that of another. -/
def linkedPages : Tree where
  entries :=
    [((Path.ofText "out").segments, .directory),
      ((Path.ofText "out/pages").segments, .directory),
      ((Path.ofText "out/pages/packages").segments, .directory),
      ((Path.ofText "out/pages/packages/release_a.adoc").segments,
        .link (.ofText "release_b.adoc"))]
  workingDirectory := []

/-- Whether the text of a page is on disk. -/
def isKept (tree : Tree) (page : PlannedPage) : Bool :=
  match page.text, tree.read page.path with
  | .ok text, .ok found => text = found
  | _, _ => false

theorem isKept_of_exists {tree : Tree} {page : PlannedPage}
    (h : ∃ text, page.text = .ok text ∧ tree.read page.path = .ok text) : isKept tree page = true := by
  obtain ⟨text, rendered, found⟩ := h
  simp [isKept, rendered, found]

theorem closed_empty : Tree.empty.Closed :=
  Tree.closed_of_entries (by simp [Tree.empty])

/-- Two packages of one topic with the same last segment have one page. -/
theorem exists_shared_page :
    ∃ written after, ((Generation.documents (.ofModules (samplePackages ["a.x", "b.x"]))
        (.ofRegistry (.ofModules (samplePackages ["a.x", "b.x"])))).mapM
          (writeTopic (.ofText "out") (AsciiDoc.renderer none))).Yields (.start .empty) written after ∧
      ¬ (written.flatten.map Path.components).Nodup := by
  have evaluated : (∀ topic ∈ Topic.all, (assembledSample ["a.x", "b.x"] topic).InOrder) ∧
      (writeSample (Topic.all.map (assembledSample ["a.x", "b.x"]))).succeedsWith (.start .empty)
        (fun written _ => !decide (written.flatten.map Path.components).Nodup) = true := by
    decide +kernel
  obtain ⟨inOrder, wrote⟩ := evaluated
  obtain ⟨written, after, run, shared⟩ := Action.exists_yields_of_succeedsWith wrote
  exact ⟨written, after, yields_sample inOrder run, by simpa using shared⟩

theorem closed_linkedPages : linkedPages.Closed :=
  Tree.closed_of_entries (by decide +kernel)

/-- Where the page of one package is a link to that of another, the text of the other is in both. -/
theorem exists_lost_page :
    ∃ written after, ((Generation.documents (.ofModules (samplePackages ["a", "b"]))
        (.ofRegistry (.ofModules (samplePackages ["a", "b"])))).mapM
          (writeTopic (.ofText "out") (AsciiDoc.renderer none))).Yields (.start linkedPages)
            written after ∧
      (written.flatten.map Path.components).Nodup ∧
      ∃ topic ∈ Topic.all, ∃ page ∈ pages (.ofText "out") (AsciiDoc.renderer none)
          (.build (.ofModules (samplePackages ["a", "b"]))
            (.ofRegistry (.ofModules (samplePackages ["a", "b"]))) topic),
        isKept after.files page = false := by
  have evaluated : (∀ topic ∈ Topic.all, (assembledSample ["a", "b"] topic).InOrder) ∧
      (writeSample (Topic.all.map (assembledSample ["a", "b"]))).succeedsWith (.start linkedPages)
        (fun written after => (written.flatten.map Path.components).Nodup &&
          Topic.all.any fun topic =>
            (pages (.ofText "out") (AsciiDoc.renderer none) (assembledSample ["a", "b"] topic)).any
              fun page => !isKept after.files page) = true := by
    decide +kernel
  obtain ⟨inOrder, wrote⟩ := evaluated
  obtain ⟨written, after, run, test⟩ := Action.exists_yields_of_succeedsWith wrote
  obtain ⟨apart, lost⟩ := Bool.and_eq_true_iff.1 test
  obtain ⟨topic, mem, lost⟩ := List.any_eq_true.1 lost
  obtain ⟨page, inPages, lost⟩ := List.any_eq_true.1 lost
  have documented : Document.build _ _ topic = assembledSample ["a", "b"] topic :=
    Document.build_eq_assembled (inOrder topic mem)
  rw [← documented] at inPages
  exact ⟨written, after, yields_sample inOrder run, of_decide_eq_true apart, topic, mem, page, inPages,
    by simpa using lost⟩

/-- Two packages of one topic with the same last segment have one page, and what is written to one page
is in another if there is a link. -/
theorem not_every_page_apart_and_kept :
    (¬ ∀ modules : List AnnotatedModule, (∀ module ∈ modules, module.IsExtractedInPlace) →
      ∀ out sourceUrl (before after : Session) written, before.files.Closed →
        ((Generation.documents (.ofModules modules) (.ofRegistry (.ofModules modules))).mapM
          (writeTopic out (AsciiDoc.renderer sourceUrl))).Yields before written after →
        (written.flatten.map Path.components).Nodup) ∧
    ¬ ∀ modules : List AnnotatedModule, (∀ module ∈ modules, module.IsExtractedInPlace) →
      ∀ out sourceUrl (before after : Session) written, before.files.Closed →
        ((Generation.documents (.ofModules modules) (.ofRegistry (.ofModules modules))).mapM
          (writeTopic out (AsciiDoc.renderer sourceUrl))).Yields before written after →
        (written.flatten.map Path.components).Nodup →
        ∀ topic ∈ Topic.all, ∀ page ∈ pages out (AsciiDoc.renderer sourceUrl)
            (.build (.ofModules modules) (.ofRegistry (.ofModules modules)) topic),
          ∃ text, page.text = .ok text ∧ after.files.read page.path = .ok text := by
  constructor
  · intro always
    obtain ⟨written, after, run, shared⟩ := exists_shared_page
    exact shared (always _ (isExtractedInPlace_of_mem_samplePackages _) _ _ _ _ _ closed_empty run)
  · intro always
    obtain ⟨written, after, run, apart, topic, mem, page, inPages, lost⟩ := exists_lost_page
    have kept := isKept_of_exists (always _ (isExtractedInPlace_of_mem_samplePackages _) _ _ _ _ _
      closed_linkedPages run apart topic mem page inPages)
    simp [lost] at kept

end Site

end PolicyPages
