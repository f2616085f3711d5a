import PolicyPages.Path

/-!
# Where pages are

The names of the pages of a topic, and the directories they are in:

```text
<out>/partials/<qualifier>_policy_nav.adoc
<out>/pages/<qualifier>_policy.adoc
<out>/pages/packages/<qualifier>_<package>.adoc
```
-/

namespace PolicyPages.Page

/-- The file name of a topic's navigation. -/
def navName (qualifier : String) : String :=
  qualifier ++ "_policy_nav.adoc"

/-- The file name of a topic's overview. -/
def overviewName (qualifier : String) : String :=
  qualifier ++ "_policy.adoc"

/-- The file name of the page of a package. -/
def packageName (qualifier package : String) : String :=
  qualifier ++ "_" ++ package ++ ".adoc"

/-- The directory of the navigation. -/
def partialsDirectory (out : Path) : Path :=
  out.join (.ofText "partials")

/-- The directory of the pages. -/
def pagesDirectory (out : Path) : Path :=
  out.join (.ofText "pages")

/-- The directory of the pages of packages. -/
def packagesDirectory (out : Path) : Path :=
  (pagesDirectory out).join (.ofText "packages")

end PolicyPages.Page
