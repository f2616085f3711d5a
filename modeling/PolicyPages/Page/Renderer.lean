import PolicyPages.Document
import PolicyPages.Failure

/-!
# Renderers

A renderer gives the text of each page of a document, or says why there is none.
-/

namespace PolicyPages

/-- The texts of the pages of a document. -/
structure PageRenderer where
  nav : Document → Except Failure String
  overview : Document → Except Failure String
  package : Document → Section → Except Failure String

end PolicyPages
