import PolicyPages.Log.Event

/-!
# Log lines

An event on one line: its level, its message, and each field as `name=value`, separated by spaces.
-/

namespace PolicyPages.Log

/-- A field on a line. A text that is logged as a text stands in quotes. -/
def Field.line (field : Field) : String :=
  field.name ++ "=" ++ (if field.quoted then "\"" ++ field.text ++ "\"" else field.text)

/-- The line of an event, without its end. -/
def Event.line (event : Event) : String :=
  " ".intercalate (event.level.label :: event.message :: event.fields.map Field.line)

end PolicyPages.Log
