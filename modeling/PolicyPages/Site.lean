import PolicyPages.Page.Anchor
import PolicyPages.Page.Layout
import PolicyPages.Page.Renderer
import PolicyPages.Session

/-!
# Writing the pages of a topic

The pages of a document in the order in which they are written: the navigation, the overview, and the
page of each package. The first page that cannot be rendered or written ends the topic, and the pages
before it stay. A page is rendered as a whole before its file is touched.
-/

namespace PolicyPages

/-- A page: where it is written, and its text or what stands in its way. -/
structure PlannedPage where
  path : Path
  text : Except Failure String

namespace Site

/-- The page of a package. One without a name is reported against the directory of such pages. -/
def packagePage (out : Path) (renderer : PageRenderer) (document : Document) (part : Section) :
    PlannedPage :=
  let directory := Page.packagesDirectory out
  match part.package.packageName with
  | .ok name =>
    ⟨directory.join (.ofText (Page.packageName document.topic.qualifier name)),
      renderer.package document part⟩
  | .error violation => ⟨directory, .error (.contract violation)⟩

/-- The pages of a document in order. -/
def pages (out : Path) (renderer : PageRenderer) (document : Document) : List PlannedPage :=
  let qualifier := document.topic.qualifier
  ⟨(Page.partialsDirectory out).join (.ofText (Page.navName qualifier)), renderer.nav document⟩ ::
  ⟨(Page.pagesDirectory out).join (.ofText (Page.overviewName qualifier)),
    renderer.overview document⟩ ::
  document.packages.map (packagePage out renderer document)

/-- The directories of the pages, each after the one it lies in. -/
def directories (out : Path) : List Path :=
  [Page.partialsDirectory out, Page.pagesDirectory out, Page.packagesDirectory out]

/-- Writes a page on a volume. The result is its path. -/
def writePageOn (volume : Files.Volume) (page : PlannedPage) : Action Failure Path :=
  match page.text with
  | .ok text => do
    Action.writeOn volume (.write page.path) page.path text
    return page.path
  | .error failure => throw (.page page.path failure)

/-- Writes the pages of a document on a volume. The result is their paths. -/
def writeTopicOn (volume : Files.Volume) (out : Path) (renderer : PageRenderer)
    (document : Document) : Action Failure (List Path) := do
  for directory in directories out do
    Action.createDirectoriesOn volume (.write directory) directory
  let written ← (pages out renderer document).mapM (writePageOn volume)
  Action.log [.topicWritten document.topic.qualifier written.length]
  return written

/-- Writes a page. The result is its path. -/
def writePage (page : PlannedPage) : Action Failure Path :=
  writePageOn .faultless page

/-- Writes the pages of a document. The result is their paths. -/
def writeTopic (out : Path) (renderer : PageRenderer) (document : Document) :
    Action Failure (List Path) :=
  writeTopicOn .faultless out renderer document

theorem writePage_eq (page : PlannedPage) :
    writePage page =
      match page.text with
      | .ok text => do
        Action.write (.write page.path) page.path text
        return page.path
      | .error failure => throw (.page page.path failure) :=
  rfl

theorem writeTopic_eq (out : Path) (renderer : PageRenderer) (document : Document) :
    writeTopic out renderer document = do
      for directory in directories out do
        Action.createDirectories (.write directory) directory
      let written ← (pages out renderer document).mapM writePage
      Action.log [.topicWritten document.topic.qualifier written.length]
      return written :=
  rfl

end Site

end PolicyPages
