import PolicyPages.Proofs.Page.Overwriting
import PolicyPages.Proofs.Site.Writing

/-!
# Pages stay below the output

Where a page is below the output does not depend on the output: its path is the output joined with the
path that the page has when nothing stands for the output (`Site.paths_eq`). This path has names only,
the first of which is a directory of pages, whatever a package is called
(`Site.staysInside_of_extends`).
-/

namespace PolicyPages.Site

open Files (Content Place Tree)
open Page (fixed)

/-- The output when nothing stands for it. -/
def noOutput : Path := ⟨[]⟩

/-- The path leads down from where it begins, into one of the directories of pages. -/
structure StaysInside (relative : Path) : Prop where
  starts : ∃ directory ∈ ["partials", "pages"],
    relative.components.head? = some (.name (fixed directory))
  noUp : .up ∉ relative.components
  noRoot : .root ∉ relative.components

/-- The path is that of the output joined with one that stays inside. -/
def IsInside (out path : Path) : Prop :=
  ∃ relative, path = out.join relative ∧ StaysInside relative

section

variable {out path : Path} {renderer : PageRenderer} {document : Document} {page : PlannedPage}

theorem partialsDirectory_eq (out : Path) :
    Page.partialsDirectory out = out.join (Page.partialsDirectory noOutput) :=
  congrArg out.join (Path.join_of_isEmpty rfl).symm

theorem pagesDirectory_eq (out : Path) :
    Page.pagesDirectory out = out.join (Page.pagesDirectory noOutput) :=
  congrArg out.join (Path.join_of_isEmpty rfl).symm

theorem packagesDirectory_eq (out : Path) :
    Page.packagesDirectory out = out.join (Page.packagesDirectory noOutput) := by
  rw [Page.packagesDirectory, pagesDirectory_eq out, Path.join_assoc]
  rfl

theorem path_packagePage (part : Section) :
    (packagePage out renderer document part).path =
      out.join (packagePage noOutput renderer document part).path := by
  unfold packagePage
  rw [packagesDirectory_eq out]
  cases part.package.packageName with
  | ok name => exact Path.join_assoc ..
  | error violation => rfl

/-- The paths of pages are joined to the output. -/
theorem paths_eq (out : Path) (renderer : PageRenderer) (document : Document) :
    (pages out renderer document).map PlannedPage.path =
      (pages noOutput renderer document).map fun page => out.join page.path := by
  have packages : (document.packages.map (packagePage out renderer document)).map
      PlannedPage.path = (document.packages.map (packagePage noOutput renderer document)).map
        fun page => out.join page.path := by
    rw [List.map_map, List.map_map]
    exact List.map_congr_left fun part _ => path_packagePage part
  simp only [pages, List.map_cons, packages]
  rw [partialsDirectory_eq out, pagesDirectory_eq out, Path.join_assoc, Path.join_assoc]

/-- A path is inside if it has names for the empty output, the first of which is a directory of pages. -/
theorem staysInside_of_extends {below : List FileName} (h : path.Extends noOutput below)
    (starts : ∃ directory ∈ ["partials", "pages"], below.head? = some (fixed directory)) :
    StaysInside path := by
  have components : path.components = below.map .name := h.components
  obtain ⟨directory, mem, first⟩ := starts
  refine ⟨⟨directory, mem, ?_⟩, ?_, ?_⟩
  · rw [components, List.head?_map, first]
    rfl
  · simp [components]
  · simp [components]

theorem isInside_of_mem_directories (mem : path ∈ directories out) : IsInside out path := by
  simp only [directories, List.mem_cons, List.not_mem_nil, or_false] at mem
  rcases mem with rfl | rfl | rfl
  · exact ⟨_, partialsDirectory_eq out,
      staysInside_of_extends (extends_partialsDirectory noOutput) ⟨"partials", by simp, rfl⟩⟩
  · exact ⟨_, pagesDirectory_eq out,
      staysInside_of_extends (extends_pagesDirectory noOutput) ⟨"pages", by simp, rfl⟩⟩
  · exact ⟨_, packagesDirectory_eq out,
      staysInside_of_extends (extends_packagesDirectory noOutput) ⟨"pages", by simp, rfl⟩⟩

theorem starts_of_mem_belows {topic : Topic} {packages : List Section} {below : List FileName}
    (mem : below ∈ Page.belows topic packages) :
    ∃ directory ∈ ["partials", "pages"], below.head? = some (fixed directory) := by
  simp only [Page.belows, List.mem_cons, List.mem_map] at mem
  rcases mem with rfl | rfl | ⟨part, -, rfl⟩
  · exact ⟨"partials", by simp, rfl⟩
  · exact ⟨"pages", by simp, rfl⟩
  · exact ⟨"pages", by simp, rfl⟩

/-- The pages of a document are inside if its packages have names without dots. -/
theorem isInside_of_mem_pages (topic : document.topic ∈ Topic.all)
    (named : ∀ part ∈ document.packages, part.Named) (mem : page ∈ pages out renderer document) :
    IsInside out page.path := by
  have path : page.path ∈ (pages out renderer document).map PlannedPage.path :=
    List.mem_map_of_mem mem
  rw [paths_eq] at path
  obtain ⟨unplaced, planned, path⟩ := List.mem_map.1 path
  obtain ⟨below, inBelows, pageAt⟩ := exists_mem_of_forall₂ (forall₂_pageAt topic named) planned
  exact ⟨unplaced.path, path.symm,
    staysInside_of_extends pageAt.isBelow (starts_of_mem_belows inBelows)⟩

/-- Whether it succeeds or not, a run changes files of pages only. -/
theorem exists_page_of_changed {before : Session} {place : Place} {content : Content}
    (now : ((writeTopic out renderer document).outcome before).2.files.at? place =
      some (.file content))
    (changed : before.files.at? place ≠ some (.file content)) :
    ∃ page ∈ pages out renderer document,
      ((writeTopic out renderer document).outcome before).2.files.Denotes page.path place := by
  have meets := meets_writeTopic out renderer document before
  unfold Action.Meets at meets
  rcases outcome : (writeTopic out renderer document).outcome before with ⟨failure | written, after⟩
  · rw [outcome] at meets now
    obtain ⟨count, wrote⟩ := meets
    obtain ⟨page, mem, denotes⟩ := wrote.exists_page_of_changed now changed
    exact ⟨page, List.mem_of_mem_take mem, denotes⟩
  · rw [outcome] at meets now
    exact meets.2.exists_page_of_changed now changed

/-- For all modules that are read from texts, all paths of a topic's run are inside: its directories, its
pages, what it reports, and what leads to a file that it makes or changes, even if it fails. -/
theorem written_inside_output {modules : List AnnotatedModule}
    (extracted : ∀ module ∈ modules, module.IsExtracted) (membership : Membership) {topic : Topic}
    (mem : topic ∈ Topic.all) (out : Path) (renderer : PageRenderer) (before : Session) :
    let document := Document.build (.ofModules modules) membership topic
    let run := writeTopic out renderer document
    (∀ directory ∈ directories out, IsInside out directory) ∧
    (∀ page ∈ pages out renderer document, IsInside out page.path) ∧
    (∀ written after, run.Yields before written after → ∀ path ∈ written, IsInside out path) ∧
    ∀ place content, (run.outcome before).2.files.at? place = some (.file content) →
      before.files.at? place ≠ some (.file content) →
      ∃ path, IsInside out path ∧ (run.outcome before).2.files.Denotes path place := by
  intro document run
  have inside : ∀ page ∈ pages out renderer document, IsInside out page.path :=
    fun page inPages =>
      isInside_of_mem_pages mem (fun _ inDocument => named_of_mem_packages extracted inDocument) inPages
  refine ⟨fun _ => isInside_of_mem_directories, inside, ?_, ?_⟩
  · rintro written after yields path inWritten
    rw [eq_of_yields_writeTopic yields] at inWritten
    obtain ⟨page, inPages, rfl⟩ := List.mem_map.1 inWritten
    exact inside page inPages
  · intro place content now changed
    obtain ⟨page, inPages, denotes⟩ := exists_page_of_changed now changed
    exact ⟨page.path, inside page inPages, denotes⟩

end

/-! ### A package that is called like a path -/

/-- A module whose package leads up and to the root, if its names were the names of paths. -/
def samplePath : List AnnotatedModule :=
  (AnnotatedModule.ofText? (.ofText "policy/release/up.rego")
    "# METADATA\n# title: Up\npackage a../../etc/passwd\n").toList

/-- The page of the package lies below the directory of such pages. -/
theorem written_inside_output_samplePath :
    let out := Path.ofText "out"
    let registry := Registry.ofModules samplePath
    let topic := Topic.all.head Topic.all_ne_nil
    let document := Document.build registry (.ofRegistry registry) topic
    let before := Session.start
      (Files.Tree.createDirectories .empty (.ofText "out/pages/packages/release_/etc")).2
    ∃ written after, (writeTopic out (AsciiDoc.renderer none) document).Yields before written after ∧
      written.map Path.display = ["out/partials/release_policy_nav.adoc",
        "out/pages/release_policy.adoc", "out/pages/packages/release_/etc/passwd.adoc"] ∧
      ∀ path ∈ written, IsInside out path := by
  intro out registry topic document before
  have evaluated : (writeTopic out (AsciiDoc.renderer none) document).succeedsWith before
      (fun written _ => written.map Path.display = ["out/partials/release_policy_nav.adoc",
        "out/pages/release_policy.adoc", "out/pages/packages/release_/etc/passwd.adoc"]) = true := by
    decide +kernel
  obtain ⟨written, after, yields, paths⟩ := Action.exists_yields_of_succeedsWith evaluated
  have extracted : ∀ module ∈ samplePath, module.IsExtracted := by
    intro module mem
    exact (AnnotatedModule.isExtractedInPlace_of_ofText? (Option.mem_toList.1 mem)).isExtracted
  have mem : topic ∈ Topic.all := List.head_mem _
  obtain ⟨-, -, inside, -⟩ := written_inside_output extracted (.ofRegistry registry) mem out
    (AsciiDoc.renderer none) before
  exact ⟨written, after, yields, of_decide_eq_true paths, inside written after yields⟩

end PolicyPages.Site
