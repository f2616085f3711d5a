/-!
# Levels of log events
-/

namespace PolicyPages.Log

/-- How much an event matters, from the least to the most. -/
inductive Level where
  | trace
  | debug
  | info
  | warn
  | error
deriving DecidableEq, Repr

namespace Level

/-- All levels in order. -/
def all : List Level := [trace, debug, info, warn, error]

/-- The name of a level in small letters. -/
def name : Level → String
  | trace => "trace"
  | debug => "debug"
  | info => "info"
  | warn => "warn"
  | error => "error"

/-- The name of a level as it is logged. -/
def label : Level → String
  | trace => "TRACE"
  | debug => "DEBUG"
  | info => "INFO"
  | warn => "WARN"
  | error => "ERROR"

/-- The rank of a level. -/
def rank : Level → Nat
  | trace => 0
  | debug => 1
  | info => 2
  | warn => 3
  | error => 4

/-- A text with its ASCII capitals made small. -/
def lowercase (text : String) : String :=
  String.ofList (text.toList.map Char.toLower)

/-- The level of a name, in which ASCII capitals are as good as small letters. -/
def ofName? (name : String) : Option Level :=
  all.find? fun level => level.name == lowercase name

end Level

end PolicyPages.Log
