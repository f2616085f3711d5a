import PolicyPages.Failure
import PolicyPages.Files.Access
import PolicyPages.Files.Walk
import PolicyPages.Log.Event
import PolicyPages.Settings

/-!
# Discovery

The policy modules below the source roots, roots in the given order and each root in the order of a
walk. A module is a file whose name ends in the rule suffix and not in the test suffix. The first
thing that cannot be reached ends discovery.
-/

namespace PolicyPages

/-- Whether a file name is that of a rule source, and not that of a test. -/
def isRuleSource (settings : DiscoverySettings) (fileName : String) : Bool :=
  Text.endsWith fileName settings.ruleSuffix && !Text.endsWith fileName settings.testSuffix

/-- A module that was found: the root it was found under, and its path below the root. -/
structure FoundModule where
  root : Path
  file : Path
deriving DecidableEq

/-- The path of a module on disk. -/
def FoundModule.path (found : FoundModule) : Path :=
  found.root.join found.file

namespace Discovery

open Files (Visit Tree)

/-- The name of what is visited. -/
def nameOf (visit : Visit) : FileName :=
  visit.names.getLast?.getD visit.path.fileName

/-- The path of what is visited below the root; the root itself goes by its name. -/
def pathBelow (visit : Visit) : Path :=
  if visit.names.isEmpty then ⟨nameOf visit⟩ else Path.ofComponents (visit.names.map .name)

/-- The module that is visited, if it is one. -/
def moduleAt? (settings : DiscoverySettings) (root : Path) (visit : Visit) : Option FoundModule :=
  if visit.isFile then
    match Path.text? ⟨nameOf visit⟩ with
    | some name => if isRuleSource settings name then some ⟨root, pathBelow visit⟩ else none
    | none => none
  else none

/-- The event of a visit: a file whose name is no text is passed over. -/
def eventAt? (visit : Visit) : Option Log.Event :=
  if visit.isFile && (Path.text? ⟨nameOf visit⟩).isNone then some (.nameSkipped visit.path) else none

/-- The failure at which a walk stops. -/
def stopFailure (error : Files.WalkError) : Failure :=
  .discovery error.path (.walk error)

/-- The modules below the roots. -/
def modules (tree : Tree) (settings : DiscoverySettings) :
    (roots : List Path) → Except Failure (List FoundModule)
  | [] => .ok []
  | root :: rest =>
    let walk := tree.walk root
    match walk.stop with
    | some error => .error (stopFailure error)
    | none => do
      let others ← modules tree settings rest
      return walk.visits.filterMap (moduleAt? settings root) ++ others

/-- The events of visiting the roots, up to the first stop. -/
def visitEvents (tree : Tree) : (roots : List Path) → List Log.Event
  | [] => []
  | root :: rest =>
    let walk := tree.walk root
    walk.visits.filterMap eventAt? ++
      (if walk.stop.isSome then [] else visitEvents tree rest)

/-- The events of discovery. -/
def events (tree : Tree) (settings : DiscoverySettings) (roots : List Path) : List Log.Event :=
  visitEvents tree roots ++
    match modules tree settings roots with
    | .ok found => [.discovered roots.length found.length]
    | .error _ => []

end Discovery

end PolicyPages
