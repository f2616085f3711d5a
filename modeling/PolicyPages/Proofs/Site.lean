import PolicyPages.Generation
import PolicyPages.Proofs.Sequencing

/-!
# Which pages are written

Writing the documents of a registry, one after the other, yields a list of paths for each of them. If
it succeeds, these are the paths of the planned pages in order (`Site.eq_of_yields_writeTopic`), so
the page of every package with a name is among them (`Site.packagePage_mem_written`).
-/

namespace PolicyPages.Site

variable {out : Path} {renderer : PageRenderer} {before after : Session}

theorem eq_of_yields_writePage {page : PlannedPage} {path : Path}
    (h : (writePage page).Yields before path after) : path = page.path := by
  rw [writePage_eq] at h
  cases rendered : page.text with
  | error failure =>
    rw [rendered] at h
    exact absurd h Action.not_yields_throw
  | ok text =>
    rw [rendered] at h
    obtain ⟨_, _, _, returned⟩ := Action.yields_bind_iff.1 h
    exact (Action.yields_pure_iff.1 returned).1

/-- Writing a document yields the paths of its pages. -/
theorem eq_of_yields_writeTopic {document : Document} {written : List Path}
    (h : (writeTopic out renderer document).Yields before written after) :
    written = (pages out renderer document).map PlannedPage.path := by
  rw [writeTopic_eq] at h
  obtain ⟨_, _, _, afterDirectories⟩ := Action.yields_bind_iff.1 h
  obtain ⟨_, _, yieldsPages, afterPages⟩ := Action.yields_bind_iff.1 afterDirectories
  obtain ⟨_, _, _, returned⟩ := Action.yields_bind_iff.1 afterPages
  obtain rfl := (Action.yields_pure_iff.1 returned).1
  have each : List.Forall₂ (fun page path => path = page.path) (pages out renderer document)
      written :=
    (Action.forall₂_of_yields_mapM yieldsPages).imp fun _ _ ⟨_, _, yields⟩ =>
      eq_of_yields_writePage yields
  have same : List.Forall₂ (· = ·) written ((pages out renderer document).map PlannedPage.path) :=
    List.forall₂_map_right_iff.2 each.flip
  rwa [List.forall₂_eq_eq_eq] at same

/-- Writing documents yields the paths of their pages. -/
theorem eq_of_yields_writeTopics {documents : List Document} {written : List (List Path)}
    (h : (documents.mapM (writeTopic out renderer)).Yields before written after) :
    written = documents.map fun document => (pages out renderer document).map PlannedPage.path := by
  have each : List.Forall₂ (fun document paths =>
      paths = (pages out renderer document).map PlannedPage.path) documents written :=
    (Action.forall₂_of_yields_mapM h).imp fun _ _ ⟨_, _, yields⟩ => eq_of_yields_writeTopic yields
  rw [← List.forall₂_eq_eq_eq, List.forall₂_map_right_iff]
  exact each.flip

variable {registry : Registry} {membership : Membership} {written : List (List Path)}

/-- If all documents are written, so is the page of each package with a name. -/
theorem packagePage_mem_written
    (h : ((Generation.documents registry membership).mapM (writeTopic out renderer)).Yields
      before written after)
    {topic : Topic} (mem : topic ∈ Topic.all) {part : Section}
    (memPart : part ∈ (Document.build registry membership topic).packages) {name : String}
    (named : part.package.packageName = .ok name) :
    (Page.packagesDirectory out).join (.ofText (Page.packageName topic.qualifier name)) ∈
      written.flatten := by
  have inDocuments : Document.build registry membership topic ∈
      Generation.documents registry membership := List.mem_map_of_mem mem
  obtain ⟨paths, memPaths, _, _, yields⟩ :=
    exists_mem_of_forall₂ (Action.forall₂_of_yields_mapM h) inDocuments
  rw [eq_of_yields_writeTopic yields] at memPaths
  have planned : packagePage out renderer (Document.build registry membership topic) part ∈
      pages out renderer (Document.build registry membership topic) :=
    List.mem_cons_of_mem _ (List.mem_cons_of_mem _ (List.mem_map_of_mem memPart))
  have path : (packagePage out renderer (Document.build registry membership topic) part).path =
      (Page.packagesDirectory out).join (.ofText (Page.packageName topic.qualifier name)) := by
    rw [packagePage, named]
    rfl
  rw [← path]
  exact List.mem_flatten.2 ⟨_, memPaths, List.mem_map_of_mem planned⟩

end PolicyPages.Site
