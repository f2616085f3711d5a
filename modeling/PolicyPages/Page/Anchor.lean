import PolicyPages.Document
import PolicyPages.Failure

/-!
# What pages read off annotations

The identifier under which a package or rule can be linked, the name of a package, and how violations
of a rule are reported. Each of them names what an annotation lacks for it.
-/

namespace PolicyPages

/-- How violations of a rule are reported. -/
inductive Severity where
  | failure
  | warning
deriving DecidableEq, Repr

/-- The word for a severity. -/
def Severity.word : Severity → String
  | failure => "failure"
  | warning => "warning"

/-- The word for a severity in capitals. -/
def Severity.label : Severity → String
  | failure => "FAILURE"
  | warning => "WARNING"

namespace Annotation

/-- The name of a package, the last segment of its target path. -/
def packageName (package : Annotation) : Except ContractViolation String :=
  match package.targetPath.getLast? with
  | some name => .ok name
  | none => .error (.emptyTargetPath package.title)

/-- The name of the package that a rule's target path names, the segment before the last. -/
def ownerName? (rule : Annotation) : Option String :=
  rule.targetPath.dropLast.getLast?

/-- The identifier of a package: its name and the word `package`. -/
def packageAnchor (package : Annotation) : Except ContractViolation String :=
  package.packageName.map (· ++ "_package")

/-- The identifier of a rule: the name of its package and its short name. -/
def ruleAnchor (rule : Annotation) : Except ContractViolation String :=
  match rule.ownerName?, rule.shortName? with
  | none, _ => .error (.shortTargetPath rule.title rule.dottedTarget)
  | some _, none => .error (.noShortName rule.title)
  | some owner, some shortName => .ok (owner ++ "__" ++ shortName)

/-- The identifier under which an annotation can be linked. -/
def anchor (note : Annotation) : Except ContractViolation String :=
  match note.scope with
  | .package => note.packageAnchor
  | .rule => note.ruleAnchor

/-- The severity of a rule, by the last segment of its dotted target. -/
def severity (rule : Annotation) : Except ContractViolation Severity :=
  if Text.endsWith rule.dottedTarget ".deny" then .ok .failure
  else if Text.endsWith rule.dottedTarget ".warn" then .ok .warning
  else .error (.noSeverity rule.dottedTarget)

/-- Whether a rule belongs to the built-in collection. -/
def isBuiltIn (note : Annotation) : Bool :=
  note.tags.contains "builtin"

end Annotation

end PolicyPages
