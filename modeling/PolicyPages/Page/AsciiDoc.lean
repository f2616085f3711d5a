import PolicyPages.Json.Printing
import PolicyPages.Page.Anchor
import PolicyPages.Page.Layout
import PolicyPages.Page.Renderer
import PolicyPages.Page.RuleData
import PolicyPages.Text.Blank

/-!
# Pages in AsciiDoc

The pages of a document in AsciiDoc: a navigation with an entry for each collection and each package,
an overview that lists them, and a page for each package with a block for each of its rules. Links
are relative to the directory of the pages.

A page is a list of lines, each of which ends with a line feed.
-/

namespace PolicyPages.AsciiDoc

open Json (Value)

/-- The lines of a page. -/
abbrev Lines := List String

/-- The text of a page. -/
def textOf (lines : Lines) : String :=
  String.join (lines.map (· ++ "\n"))

/-- A line with an empty line after it. -/
def paragraph (text : String) : Lines :=
  [text, ""]

/-- A description without the blanks at its end, if anything is left of it. -/
def description (note : Annotation) : Lines :=
  let text := Text.rstrip note.description
  if text.isEmpty then [] else paragraph text

/-- The mark that gives a block an identifier. -/
def blockId (id : String) : String :=
  "[#" ++ id ++ "]"

/-- A link with its label. -/
def link (target label : String) : String :=
  "xref:" ++ target ++ "[" ++ label ++ "]"

/-- The place of a package's page, seen from the directory of the pages. -/
def packagePage (qualifier package : String) : String :=
  "packages/" ++ Page.packageName qualifier package

/-- The identifier of the section on collections. -/
def collectionsId : String := "_available_rule_collections"

/-- The identifier of the section on packages. -/
def packagesId : String := "_available_rule_packages"

/-! ### Navigation -/

/-- The entry of a collection. -/
def navCollection (overview : String) (listing : Listing) : Except ContractViolation String := do
  let id ← listing.collection.anchor
  return "*** " ++ link (overview ++ "#" ++ id) listing.collection.title

/-- The entry of a package. -/
def navPackage (qualifier : String) (part : Section) : Except ContractViolation String := do
  let name ← part.package.packageName
  return "*** " ++ link (packagePage qualifier name) part.package.title

/-- The lines of the navigation. -/
def navLines (document : Document) : Except ContractViolation Lines := do
  let topic := document.topic
  let overview := Page.overviewName topic.qualifier
  let collections ← document.collections.mapM (navCollection overview)
  let packages ← document.packages.mapM (navPackage topic.qualifier)
  let heading (entries : Lines) (id label : String) : Lines :=
    if entries.isEmpty then []
    else ("** " ++ link (overview ++ "#" ++ id) label) :: entries
  return ("* " ++ link overview (topic.name ++ " Policy"))
    :: heading collections collectionsId "Rule Collections"
    ++ heading packages packagesId "Rule Packages"

/-! ### Overview -/

/-- The link from a collection to a rule. It leads to the page of the rule's package, in the topic
that holds the rule; a rule outside of every topic has no page and is named only. -/
def memberLink (member : Member) : Except ContractViolation String := do
  let rule := member.rule
  let label := member.packageTitle ++ ": " ++ rule.title
  match Topic.of? rule.location.file with
  | none => return label
  | some topic =>
    let id ← rule.anchor
    match rule.ownerName? with
    | none => return label
    | some package => return link (packagePage topic.qualifier package ++ "#" ++ id) label

/-- The lines on the members of a collection. -/
def memberLines (members : List Member) : Except ContractViolation Lines :=
  if members.isEmpty then return paragraph "No rules are included in this collection."
  else do
    let links ← members.mapM memberLink
    return paragraph "Rules included:" ++ links.map ("* " ++ ·) ++ [""]

/-- The block of a collection. -/
def collectionLines (listing : Listing) : Except ContractViolation Lines := do
  let id ← listing.collection.anchor
  let members ← memberLines listing.members
  return blockId id :: paragraph ("=== " ++ listing.collection.title)
    ++ description listing.collection ++ members

/-- The row of a package. -/
def packageRow (qualifier : String) (part : Section) : Except ContractViolation Lines := do
  let name ← part.package.packageName
  let id ← part.package.anchor
  return ("| " ++ blockId id ++ link (packagePage qualifier name) name)
    :: paragraph ("a| " ++ Text.rstrip part.package.description)

/-- The lines of the overview. -/
def overviewLines (document : Document) : Except ContractViolation Lines := do
  let topic := document.topic
  let collections ← document.collections.mapM collectionLines
  let packages ← document.packages.mapM (packageRow topic.qualifier)
  let onCollections :=
    if collections.isEmpty then []
    else blockId collectionsId :: paragraph "== Available rule collections" ++ collections.flatten
  let onPackages :=
    if packages.isEmpty then []
    else
      blockId packagesId :: paragraph "== Available rule packages"
        ++ ["[cols=\"2,6\"]", "|===", "|*Package Name*"] ++ paragraph "|*Description*"
        ++ packages.flatten ++ ["|==="]
  return paragraph ("= " ++ topic.name ++ " Policy") ++ paragraph topic.description
    ++ onCollections ++ onPackages

/-! ### Package pages -/

/-- A value of a rule's data: a text as it is, anything else as JSON on one line. -/
def dataText : Value → String
  | .string text => text
  | value => value.compact

/-- The lines on the data that a rule reads. -/
def dataLines (data : Dictionary Value) : Lines :=
  if data.isEmpty then []
  else
    "* Rule data:" ::
      data.map fun entry => "** \x60" ++ entry.1 ++ "\x60: \x60" ++ dataText entry.2 ++ "\x60"

/-- A file as links show it: its components with slashes between them. -/
def fileText (file : Path) : String :=
  "/".intercalate (file.components.map fun part => (Path.mk part.units).display)

/-- The reference to the source of a rule: a link below the base address, or the place itself. -/
def sourceText (base : Option String) (rule : Annotation) : String :=
  let file := fileText rule.location.file
  let row := toString rule.location.row
  match base with
  | some base =>
    base ++ "/" ++ file ++ "#L" ++ row ++ "[" ++ file ++ ":" ++ row ++ ", window=\"_blank\"]"
  | none => "\x60" ++ file ++ ":" ++ row ++ "\x60"

/-- A line for a custom entry that is a text. -/
def entryLine (note : Annotation) (key : String) (line : String → String) : Lines :=
  ((note.customText? key).map line).toList

/-- The block of a rule. -/
def ruleLines (base : Option String) (package : Annotation) (name : String) (rule : Annotation) :
    Except ContractViolation Lines := do
  let id ← rule.anchor
  let severity ← rule.severity
  let solution :=
    match rule.customText? "solution" with
    | some text => paragraph ("*Solution*: " ++ Text.rstrip text)
    | none => []
  return blockId id :: paragraph ("=== link:#" ++ id ++ "[" ++ rule.title ++ "]")
    ++ description rule
    ++ solution
    ++ ["* Rule type: [rule-type-indicator " ++ severity.word ++ "]#" ++ severity.label ++ "#"]
    ++ entryLine rule "failure_msg" (fun text =>
      "* " ++ severity.label ++ " message: \x60" ++ text ++ "\x60")
    ++ entryLine rule "short_name" (fun text => "* Code: \x60" ++ name ++ "." ++ text ++ "\x60")
    ++ entryLine rule "effective_on" (fun text => "* Effective from: \x60" ++ text ++ "\x60")
    ++ dataLines (ruleData package rule)
    ++ (if rule.isBuiltIn then ["* Included in the built-in collection"] else [])
    ++ paragraph ("* Source: " ++ sourceText base rule)

/-- The lines of a package's page. -/
def packageLines (base : Option String) (part : Section) : Except ContractViolation Lines := do
  let name ← part.package.packageName
  let rules ← part.rules.mapM (ruleLines base part.package name)
  return paragraph ("= " ++ part.package.title ++ " Package")
    ++ description part.package
    ++ paragraph "== Package Name" ++ paragraph ("* \x60" ++ name ++ "\x60")
    ++ (if rules.isEmpty then [] else paragraph "== Rules Included" ++ rules.flatten)

/-! ### The renderer -/

/-- An address without the slashes at its end, if anything is left of it. -/
def baseAddress (sourceUrl : Option String) : Option String :=
  match sourceUrl with
  | none => none
  | some url =>
    let base := (url.toList.reverse.dropWhile (· == '/')).reverse
    if base.isEmpty then none else some (String.ofList base)

/-- The text of lines, or the violation that stands in their way. -/
def page (lines : Except ContractViolation Lines) : Except Failure String :=
  match lines with
  | .ok lines => .ok (textOf lines)
  | .error violation => .error (.contract violation)

/-- The renderer of AsciiDoc pages. Sources are linked below an address if one is given. -/
def renderer (sourceUrl : Option String) : PageRenderer where
  nav document := page (navLines document)
  overview document := page (overviewLines document)
  package _ part := page (packageLines (baseAddress sourceUrl) part)

end PolicyPages.AsciiDoc
