import PolicyPages.Annotation
import PolicyPages.Source.Metadata

/-!
# What may be wrong with a policy module

Every fault belongs to a line of a file: that of the metadata block, or that of the statement which
cannot stand where it does.
-/

namespace PolicyPages.Source

/-- What is wrong. -/
inductive Fault where
  /-- No statement follows a block. -/
  | unattached
  | duplicatePackage
  /-- The statement after a block begins no rule. -/
  | notAnnotatable (statement : String)
  | body (fault : BodyFault)
  | unsupportedScope (keyword : String)
  /-- The written scope is not that of the statement. -/
  | scopeMismatch (written declared : Scope)
  | beforePackage
  | secondPackage
  | ruleWithoutPackage (title : String)
deriving DecidableEq, Repr

/-- The text that explains what keeps a body from being metadata. -/
def unreadableBody : String :=
  "not YAML, or a field whose value is of the wrong kind"

/-- The text of a fault. -/
def Fault.message : Fault → String
  | unattached => "annotation block is not followed by a package or rule"
  | duplicatePackage => "duplicate package declaration"
  | notAnnotatable statement =>
    "annotation block must precede a package or rule, found '" ++ statement ++ "'"
  | body .invalidYaml => "invalid annotation YAML: " ++ unreadableBody
  | body .notMapping => "annotation block must be a YAML mapping"
  | unsupportedScope keyword => "unsupported annotation scope '" ++ keyword ++ "'"
  | scopeMismatch written declared =>
    "scope '" ++ written.keyword ++ "' cannot annotate a " ++ declared.keyword ++ " declaration"
  | beforePackage => "rule annotation appears before the package declaration"
  | secondPackage => "module declares more than one package annotation"
  | ruleWithoutPackage title =>
    "rule annotation '" ++ title ++ "' has no package annotation before it in this module"

/-- A fault and its place. -/
structure ParseError where
  path : Path
  line : Nat
  fault : Fault
deriving DecidableEq

/-- The text of a fault with its place. -/
def ParseError.message (error : ParseError) : String :=
  error.path.display ++ ":" ++ toString error.line ++ ": " ++ error.fault.message

end PolicyPages.Source
