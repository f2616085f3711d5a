import PolicyPages.Annotation

/-!
# The data a rule reads

A rule may list the parameters it reads as `rule_data`. The annotation of its package may list more of
them, in an entry under the rule's short name; there the package wins. Whatever is no object on
either way adds nothing.
-/

namespace PolicyPages

open Json (Value)

/-- The key of the parameters. -/
def ruleDataKey : String := "rule_data"

/-- The members of an entry that is an object. -/
def objectAt (entries : Dictionary Value) (key : String) : Dictionary Value :=
  ((Dictionary.get? entries key).bind Value.object?).getD []

/-- The parameters that a rule's own annotation lists. -/
def Annotation.ownRuleData (rule : Annotation) : Dictionary Value :=
  objectAt rule.custom ruleDataKey

/-- The parameters that the annotation of a package lists for a rule. -/
def Annotation.ruleDataFor (package rule : Annotation) : Dictionary Value :=
  match rule.shortName? with
  | some shortName => objectAt (objectAt package.custom shortName) ruleDataKey
  | none => []

/-- The parameters of a rule in the order of their names. -/
def ruleData (package rule : Annotation) : Dictionary Value :=
  Dictionary.ofList (rule.ownRuleData ++ package.ruleDataFor rule)

end PolicyPages
