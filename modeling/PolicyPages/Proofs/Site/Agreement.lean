import PolicyPages.Proofs.Page.Contents
import PolicyPages.Proofs.Path
import PolicyPages.Proofs.Site.Writing

/-!
# Navigation, overview and disk agree

The navigation, the overview and the paths of pages are made in three ways from the same packages and
collections. Read back, they name the same pages and the same identifiers, as long as no text breaks out
of its line or its link (`Site.pages_agree`).
-/

namespace PolicyPages.Site

open AsciiDoc

/-- The navigation, the overview and the paths of the pages name the same packages and collections. -/
structure PagesAgree (out : Path) (document : Document) (nav overview : String) (written : List Path)
    (packages ids : List String) : Prop where
  /-- There is one name for each package, in order, -/
  named : document.packages.mapM (·.package.packageName) = .ok packages
  /-- and one identifier for each collection. -/
  anchored : document.collections.mapM (·.collection.anchor) = .ok ids
  /-- The navigation links the pages with the names, -/
  linked : linkedPages nav = packages.map (Page.packageName document.topic.qualifier)
  /-- the rows of the overview link the same pages, -/
  listed : listedPages overview = linkedPages nav
  /-- and so do the paths below the directory of such pages. -/
  paths : written.drop 2 =
    (linkedPages nav).map fun name => (Page.packagesDirectory out).join (.ofText name)
  /-- The files have the names of the pages as long as none of these has a separator. -/
  fileNames : ((written.drop 2).map Path.fileName =
      (linkedPages nav).map fun name => (Path.ofText name).units) ↔
    ∀ name ∈ linkedPages nav, '/' ∉ name.toList
  /-- The navigation links the identifiers of the collections, -/
  linkedIds : linkedIds (Page.overviewName document.topic.qualifier) 3 nav = ids
  /-- which are those of their headings. -/
  headings : headingIds 3 overview = ids
  /-- The sections that the navigation links are the ones of the overview, -/
  sections : headingIds 2 overview =
    AsciiDoc.linkedIds (Page.overviewName document.topic.qualifier) 2 nav
  /-- and no other place has the identifier of a section. -/
  placed : ∀ id ∈ sectionIds, id ∈ placedIds overview ↔
    id ∈ AsciiDoc.linkedIds (Page.overviewName document.topic.qualifier) 2 nav

section

variable {document : Document} {out : Path} {qualifier name : String}

/-- A navigation links the pages of the packages. -/
theorem linkedPages_nav {sourceUrl : Option String} {nav : String} {packages : List String}
    (plain : document.PlainTexts) (rendered : (renderer sourceUrl).nav document = .ok nav)
    (named : document.packages.mapM (·.package.packageName) = .ok packages) :
    linkedPages nav = packages.map (Page.packageName document.topic.qualifier) := by
  obtain ⟨lines, made, rfl⟩ := page_eq_ok_iff.1 rendered
  obtain ⟨ids, names, -, named', each⟩ := forall₂_isEntry_navLines plain made
  obtain rfl := Except.ok.inj (named.symm.trans named')
  exact linkedPages_eq (entries_textOf each)

/-- The page of a package is a file with its name, unless the name has a separator. -/
theorem fileName_packagePage_iff {base : Path} :
    (base.join (.ofText (Page.packageName qualifier name))).fileName =
      (Path.ofText (Page.packageName qualifier name)).units ↔
    '/' ∉ (Page.packageName qualifier name).toList := by
  set page := Path.ofText (Page.packageName qualifier name)
  have units : page.units =
      (qualifier.toList ++ '_' :: name.toList).map .char ++ ".adoc".toList.map .char := by
    simp [page, Path.ofText, Page.packageName]
  have marked : '/' ∉ (Page.packageName qualifier name).toList ↔ Path.separator ∉ page.units := by
    simp [page, Path.ofText, Path.separator]
  obtain ⟨last, ends⟩ : ∃ last, page.segments.getLast? = some last :=
    ⟨_, List.getLast?_eq_some_getLast (List.splitOn_ne_nil Path.separator page.units)⟩
  -- The ending of the page stands in its last segment, so this leads down.
  have ending : ".adoc".toList.map Text.Unit8.char <:+ last := by
    rw [Path.segments, units] at ends
    exact Text.suffix_of_getLast?_splitOn (by decide) ends
  have file : (base.join page).fileName = last := by
    have long : 2 < last.length := Nat.lt_of_lt_of_le (by decide) ending.length_le
    exact Path.fileName_eq_of_getLast? ((Path.getLast?_segments_join base page).trans ends)
      (Path.leadsDown_of_length long)
  rw [file, marked]
  constructor
  · intro whole
    rw [← whole]
    exact Path.separator_notMem_of_mem_segments (List.mem_of_getLast? ends)
  · intro unmarked
    rw [Path.segments, List.splitOn_eq_singleton unmarked] at ends
    exact (Option.some.inj ends).symm

/-- The paths of pages of packages that have names. -/
theorem map_path_packagePage {renderer : PageRenderer} {packages : List String}
    (named : document.packages.mapM (·.package.packageName) = .ok packages) :
    (document.packages.map (packagePage out renderer document)).map PlannedPage.path =
      (packages.map (Page.packageName document.topic.qualifier)).map fun name =>
        (Page.packagesDirectory out).join (.ofText name) := by
  have each := (mapM_eq_ok_iff.1 named).imp fun part name
      (named : part.package.packageName = .ok name) =>
    show (packagePage out renderer document part).path = (Page.packagesDirectory out).join
      (.ofText (Page.packageName document.topic.qualifier name)) by rw [packagePage, named]
  rw [List.map_map, List.map_map, ← List.forall₂_eq_eq_eq, List.forall₂_map_left_iff,
    List.forall₂_map_right_iff]
  exact each

/-- If the pages of a document with plain texts are written, they agree. -/
theorem pages_agree {sourceUrl : Option String} {before after : Session} {written : List Path}
    (plain : document.PlainTexts)
    (run : (writeTopic out (renderer sourceUrl) document).Yields before written after) :
    ∃ nav overview packages ids, (renderer sourceUrl).nav document = .ok nav ∧
      (renderer sourceUrl).overview document = .ok overview ∧
      PagesAgree out document nav overview written packages ids := by
  obtain ⟨paths, wrote⟩ := (meets_writeTopic out (renderer sourceUrl) document before).of_yields run
  obtain ⟨nav, renderedNav⟩ := wrote.rendered _ List.mem_cons_self
  obtain ⟨overview, renderedOverview⟩ := wrote.rendered _ (.tail _ List.mem_cons_self)
  obtain ⟨navWritten, madeNav, rfl⟩ := page_eq_ok_iff.1 renderedNav
  obtain ⟨overviewWritten, madeOverview, rfl⟩ := page_eq_ok_iff.1 renderedOverview
  obtain ⟨ids, packages, anchored, named, eachEntry⟩ := forall₂_isEntry_navLines plain madeNav
  obtain ⟨ids', packages', rows, anchored', named', rowsOf, read⟩ :=
    readsAs_overviewLines plain madeOverview
  -- Both pages are made of the names and identifiers of one document.
  obtain rfl := Except.ok.inj (anchored.symm.trans anchored')
  obtain rfl := Except.ok.inj (named.symm.trans named')
  have readNav := entries_textOf eachEntry
  have readOverview := read.marks_linesOf
  have linked := linkedPages_eq readNav
  have sections := linkedIds_sections readNav
  have dropped : written.drop 2 = (packages.map (Page.packageName document.topic.qualifier)).map
      fun name => (Page.packagesDirectory out).join (.ofText name) := by
    rw [paths, ← map_path_packagePage named]
    rfl
  have anchors : ∀ id ∈ ids, id ∉ sectionIds := by
    intro id mem
    obtain ⟨listing, -, anchored⟩ := exists_mem_of_forall₂ (mapM_eq_ok_iff.1 anchored).flip mem
    exact anchor_notMem_sectionIds anchored
  refine ⟨_, _, packages, ids, renderedNav, renderedOverview, named, anchored, linked, ?_, ?_, ?_,
    linkedIds_collections readNav, headingIds_collections readOverview rowsOf, ?_, ?_⟩
  · rw [listedPages_eq readOverview rowsOf, linked]
  · rw [dropped, linked]
  · rw [dropped, linked, List.map_map, List.map_map, List.map_map, List.map_inj_left,
      List.forall_mem_map]
    exact forall₂_congr fun name _ => fileName_packagePage_iff
  · rw [headingIds_sections readOverview rowsOf, sections]
  · intro id isSection
    rw [sections]
    exact mem_placedIds_iff readOverview rowsOf anchors isSection

end

/-! ### Samples -/

/-- An annotation with a short name. -/
def sampleNote (scope : Scope) (title : String) (target : List String) : Annotation where
  scope := scope
  title := title
  description := "About " ++ title
  custom := [("short_name", .string "signed")]
  targetPath := target
  location := ⟨.ofText "policy/release/a.rego", 1, ".".intercalate target⟩

/-- A document with packages of these names, and a collection with one rule. -/
def sampleDocument (names : List String) : Document where
  topic := Topic.all.head Topic.all_ne_nil
  packages := names.map fun name => ⟨sampleNote .package name ["data", name], []⟩
  collections := [⟨sampleNote .package "minimal" ["data", "policy", "minimal"],
    [.ofRule "A" (sampleNote .rule "Signed" ["data", "a", "deny"])]⟩]

/-- The pages of two packages and of a collection agree. -/
theorem pages_agree_sampleDocument :
    let document := sampleDocument ["a", "b"]
    ∃ written after nav overview,
      (writeTopic (.ofText "out") (renderer none) document).Yields (.start .empty) written after ∧
      (renderer none).nav document = .ok nav ∧ (renderer none).overview document = .ok overview ∧
      PagesAgree (.ofText "out") document nav overview written ["a", "b"] ["minimal_package"] := by
  intro document
  have evaluated : document.PlainTexts ∧
      (writeTopic (.ofText "out") (renderer none) document).succeedsWith (.start .empty)
        (fun _ _ => true) = true ∧
      document.packages.mapM (·.package.packageName) = .ok ["a", "b"] ∧
      document.collections.mapM (·.collection.anchor) = .ok ["minimal_package"] := by
    refine ⟨by decide +kernel, by decide +kernel, rfl, rfl⟩
  obtain ⟨plain, wrote, named, anchored⟩ := evaluated
  obtain ⟨written, after, run, -⟩ := Action.exists_yields_of_succeedsWith wrote
  obtain ⟨nav, overview, packages, ids, renderedNav, renderedOverview, agree⟩ :=
    pages_agree plain run
  obtain rfl := Except.ok.inj (named.symm.trans agree.named)
  obtain rfl := Except.ok.inj (anchored.symm.trans agree.anchored)
  exact ⟨written, after, nav, overview, run, renderedNav, renderedOverview, agree⟩

/-- A page is not always the name of its file: the name of a package may have a separator. -/
theorem not_every_page_fileName :
    ¬ ∀ (out : Path) (document : Document) (sourceUrl : Option String) (before after : Session)
      (written : List Path) (nav : String), document.PlainTexts →
      (writeTopic out (renderer sourceUrl) document).Yields before written after →
      (renderer sourceUrl).nav document = .ok nav →
      (written.drop 2).map Path.fileName =
        (linkedPages nav).map fun name => (Path.ofText name).units := by
  intro all
  let document := sampleDocument ["a/b"]
  let before := Session.start
    (Files.Tree.createDirectories .empty (.ofText "out/pages/packages/release_a")).2
  have evaluated : document.PlainTexts ∧
      (writeTopic (.ofText "out") (renderer none) document).succeedsWith before (fun written _ =>
        (written.drop 2).map Path.fileName = [(Path.ofText "b.adoc").units]) = true := by
    decide +kernel
  obtain ⟨plain, wrote⟩ := evaluated
  obtain ⟨written, after, run, files⟩ := Action.exists_yields_of_succeedsWith wrote
  obtain ⟨-, pagesWritten⟩ := (meets_writeTopic _ _ _ _).of_yields run
  obtain ⟨nav, (rendered : (renderer none).nav document = .ok nav)⟩ :=
    pagesWritten.rendered _ List.mem_cons_self
  have named : document.packages.mapM (·.package.packageName) = .ok ["a/b"] := rfl
  have same := all _ _ _ _ _ _ nav plain run rendered
  rw [of_decide_eq_true files, linkedPages_nav plain rendered named] at same
  exact absurd same (by decide)

end PolicyPages.Site
