import PolicyPages.Files.Error
import PolicyPages.Source.Error

/-!
# What ends a run

Every failure is final: a run stops at the first one. An annotation violates a *contract* when it
lacks something that a page needs of it.
-/

namespace PolicyPages

/-- What a page needs and an annotation lacks. -/
inductive ContractViolation where
  | emptyTargetPath (title : String)
  | shortTargetPath (title target : String)
  | noShortName (title : String)
  | noSeverity (target : String)
  /-- Some other objection of a renderer. -/
  | refused (reason : String)
deriving DecidableEq, Repr

/-- The text of a violation. -/
def ContractViolation.message : ContractViolation → String
  | emptyTargetPath title => "package '" ++ title ++ "' has an empty target path"
  | shortTargetPath title target =>
    "rule '" ++ title ++ "' target path '" ++ target ++ "' is too short for an anchor"
  | noShortName title => "rule '" ++ title ++ "' has no custom.short_name"
  | noSeverity target => "cannot classify '" ++ target ++ "' as a warning or failure rule"
  | refused reason => reason

/-- Why a source could not be read. -/
inductive ReadFault where
  | file (error : Files.Error)
  | walk (error : Files.WalkError)
deriving DecidableEq

/-- The text of the reason. -/
def ReadFault.message : ReadFault → String
  | file error => error.message
  | walk error => error.message

/-- The text of the reason, and the text of the error behind it, if there is one. -/
def ReadFault.causes : ReadFault → List String
  | walk (.access path error) => [(walk (.access path error)).message, error.message]
  | fault => [fault.message]

/-- What ends a run. -/
inductive Failure where
  /-- A root or a module cannot be read. -/
  | discovery (path : Path) (fault : ReadFault)
  /-- A module breaks the rules for annotations. -/
  | parse (error : Source.ParseError)
  /-- A page cannot be rendered. -/
  | page (path : Path) (cause : Failure)
  /-- A page or the list of annotations cannot be written. -/
  | write (path : Path) (error : Files.Error)
  /-- The list of annotations cannot be written, since a file name is no text. -/
  | nameNotText (path : Path)
  /-- An annotation violates a contract. -/
  | contract (violation : ContractViolation)

namespace Failure

/-- The kinds of failures that are told apart. -/
inductive Kind where
  | discovery
  | parse
  | render
  | contract
deriving DecidableEq, Repr

/-- The kind of a failure. -/
def kind : Failure → Kind
  | discovery .. => .discovery
  | parse .. => .parse
  | page .. | write .. | nameNotText .. => .render
  | contract .. => .contract

/-- The text of a failure to render, before the reason. -/
def renderText (path : Path) (reason : String) : String :=
  "failed to render " ++ path.display ++ ": " ++ reason

/-- The text of a failure. -/
def message : Failure → String
  | discovery path fault => "failed to read " ++ path.display ++ ": " ++ fault.message
  | parse error => error.message
  | page path cause => renderText path cause.message
  | write path error => renderText path error.message
  | nameNotText path => renderText path "path contains invalid UTF-8 characters"
  | contract violation => "annotation contract violation: " ++ violation.message

/-- The text of a failure, and the texts of what lies behind it, from the outside in. -/
def causes (failure : Failure) : List String :=
  failure.message ::
    match failure with
    | discovery _ fault => fault.causes
    | _ => []

end Failure

end PolicyPages
