import PolicyPages.Annotation
import PolicyPages.Topic

/-!
# Documents

The document of a topic: its packages, each with the rules it owns, and its collections, each with
the rules that carry its tag.
-/

namespace PolicyPages

/-- A package and the rules it owns. -/
structure Section where
  package : Annotation
  rules : List Annotation

/-- A rule that is listed in a collection, with the title of its package. -/
structure Member where
  packageTitle : String
  rule : Annotation

/-- A rule with the title of its package, which is written into its custom metadata too. -/
def Member.ofRule (packageTitle : String) (rule : Annotation) : Member where
  packageTitle := packageTitle
  rule := { rule with
    custom := Dictionary.insert rule.custom "package_title" (.string packageTitle) }

/-- A collection and its members. The title of the collection is the tag of its rules. -/
structure Listing where
  collection : Annotation
  members : List Member

/-- The document of a topic. -/
structure Document where
  topic : Topic
  packages : List Section
  collections : List Listing

end PolicyPages
