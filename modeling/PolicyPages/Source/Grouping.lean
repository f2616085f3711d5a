import PolicyPages.Source.Error

/-!
# The grouping of annotations

A module has at most one package annotation, and it stands before the annotations of the rules it
owns. `checkGrouping` finds the first annotation that breaks this.
-/

namespace PolicyPages.Source

/-- Checks annotations in order. `hasPackage` tells whether a package annotation stands before
them. -/
def checkGroupingFrom (path : Path) : (hasPackage : Bool) → List Annotation → Except ParseError Unit
  | _, [] => .ok ()
  | hasPackage, note :: rest =>
    match note.scope, hasPackage with
    | .package, true => .error ⟨path, note.location.row, .secondPackage⟩
    | .rule, false =>
      .error ⟨path, note.location.row, .ruleWithoutPackage note.title⟩
    | _, _ => checkGroupingFrom path true rest

/-- Checks the grouping of the annotations of a module. -/
def checkGrouping (path : Path) (annotations : List Annotation) : Except ParseError Unit :=
  checkGroupingFrom path false annotations

end PolicyPages.Source
