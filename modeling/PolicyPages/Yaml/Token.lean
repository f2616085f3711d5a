import PolicyPages.Text.Utf8

/-!
# The words of a YAML text

Besides the marks that are written, the tokens hold the beginnings and ends of blocks, which a text
shows by indentation alone.
-/

namespace PolicyPages.Yaml

open Text (Unit8)

/-- The text of a tag; escapes in it may spell bytes that are no character. -/
abbrev TagText := List Unit8

/-- A word of a YAML text. -/
inductive Token where
  | versionDirective (major minor : Nat)
  | tagDirective (handle replacement : TagText)
  | documentStart
  | documentEnd
  | blockSequenceStart
  | blockMappingStart
  | blockEnd
  | flowSequenceStart
  | flowSequenceEnd
  | flowMappingStart
  | flowMappingEnd
  | blockEntry
  | flowEntry
  | key
  | value
  /-- The name of a node that stands elsewhere. -/
  | reference (name : List Char)
  /-- The name given to the node that follows. -/
  | anchor (name : List Char)
  /-- The tag of the node that follows: a handle, and what stands after it. -/
  | tag (handle suffix : TagText)
  /-- A scalar, and whether it is written without quotes and outside of a block. -/
  | scalar (text : List Char) (plain : Bool)
deriving DecidableEq, Repr

end PolicyPages.Yaml
