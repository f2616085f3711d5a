import PolicyPages.Document
import PolicyPages.Registry

/-!
# Membership in collections

A collection lists the rules of all topics that carry its tag, so membership is settled once for a
whole registry. A tagged rule whose package has no annotation is left out of every collection, and a
warning tells so; the rule stays in its own package.
-/

namespace PolicyPages

/-- A tagged rule whose package path has no package annotation. -/
structure LookupWarning where
  ruleTitle : String
  file : Path
  packagePath : String
deriving DecidableEq

/-- The text of a warning. -/
def LookupWarning.message (warning : LookupWarning) : String :=
  "package path '" ++ warning.packagePath ++ "' not found for rule '" ++ warning.ruleTitle ++ "' ("
    ++ warning.file.display ++ ")"

/-- The warning for a rule. -/
def LookupWarning.ofRule (rule : Annotation) : LookupWarning :=
  ⟨rule.title, rule.location.file, rule.location.packagePath⟩

/-- The event of a warning. -/
def LookupWarning.event (warning : LookupWarning) : Log.Event :=
  .packageMissing warning.ruleTitle warning.file warning.packagePath

/-- The members of each tag, and the rules that could not be placed. -/
structure Membership where
  byTag : Dictionary (List Member)
  warnings : List LookupWarning

namespace Membership

/-- Nothing has been placed yet. -/
def empty : Membership := ⟨[], []⟩

/-- Adds a member to a tag. -/
def addTo (member : Member) (byTag : Dictionary (List Member)) (tag : String) :
    Dictionary (List Member) :=
  Dictionary.insert byTag tag ((Dictionary.get? byTag tag).getD [] ++ [member])

/-- Places a rule under each of its tags, once however often it carries one. -/
def place (registry : Registry) (membership : Membership) (rule : Annotation) : Membership :=
  if rule.isPackage || rule.tags.isEmpty then membership
  else
    match registry.package? rule.location.packagePath with
    | none => { membership with warnings := membership.warnings ++ [.ofRule rule] }
    | some package =>
      let member := Member.ofRule package.title rule
      { membership with
        byTag := rule.tags.eraseDups.foldl (addTo member) membership.byTag }

/-- Whether a member may stand before another: by the title of the package, then by its own. -/
def inOrder (a b : Member) : Bool :=
  a.packageTitle < b.packageTitle
    || (a.packageTitle == b.packageTitle && a.rule.title ≤ b.rule.title)

/-- Settles the membership of all rules of a registry. -/
def ofRegistry (registry : Registry) : Membership :=
  let placed := registry.annotations.foldl (place registry) empty
  { placed with byTag := placed.byTag.map fun entry => (entry.1, entry.2.mergeSort inOrder) }

/-- The members of a tag in order. -/
def members (membership : Membership) (tag : String) : List Member :=
  (Dictionary.get? membership.byTag tag).getD []

end Membership

end PolicyPages
