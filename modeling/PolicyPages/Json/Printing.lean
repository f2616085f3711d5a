import PolicyPages.Decimal.Layout
import PolicyPages.Json.Value

/-!
# Writing JSON texts

A value is written either on one line without spaces, or with each item and each member on a line of
its own, indented by two spaces a level. Members stand in the order in which the value holds them: a
dictionary that of its keys, a record that of its fields.
-/

namespace PolicyPages.Json

open PolicyPages.Decimal (Binary64 Layout)

/-- Numbers are written out between `10 ^ -5` and `10 ^ 16`, with at least one digit after the
point; others have an exponent with its sign. A number that is not finite is written as the null
value. -/
def numberLayout : Layout where
  positionalFrom := -5
  positionalBelow := 16
  mark := "e"
  undefinedText := "null"

/-- A hexadecimal digit, in lower case. -/
def hexChar (n : Nat) : Char :=
  Char.ofNat (if n < 10 then '0'.toNat + n else 'a'.toNat + n - 10)

/-- A character inside quotes: quotes, backslashes and control characters are escaped. -/
def quotedChar (c : Char) : List Char :=
  match c with
  | '"' => ['\\', '"']
  | '\\' => ['\\', '\\']
  | '\x08' => ['\\', 'b']
  | '\x0c' => ['\\', 'f']
  | '\n' => ['\\', 'n']
  | '\r' => ['\\', 'r']
  | '\t' => ['\\', 't']
  | c =>
    if c.toNat < 0x20 then
      ['\\', 'u', '0', '0', hexChar (c.toNat / 16), hexChar (c.toNat % 16)]
    else [c]

/-- A text in quotes. -/
def quoted (text : String) : List Char :=
  '"' :: text.toList.flatMap quotedChar ++ ['"']

namespace Value

/-- How a value is spread over lines: on one line, or over several at a level of indentation. -/
inductive Spread where
  | line
  | lines (level : Nat)

/-- What separates a bracket or comma from the item after it, at this level. -/
def Spread.gap : Spread → List Char
  | line => []
  | lines level => '\n' :: List.replicate (2 * level) ' '

/-- The level of the items inside. -/
def Spread.deeper : Spread → Spread
  | line => line
  | lines level => lines (level + 1)

/-- What separates a key from its value. -/
def Spread.colon : Spread → List Char
  | line => [':']
  | lines _ => [':', ' ']

mutual

/-- The text of a value. -/
def written (spread : Spread) : Value → List Char
  | null => "null".toList
  | bool b => (if b then "true" else "false").toList
  | integer n => (toString n.val).toList
  | float x => (numberLayout.text x).toList
  | string text => quoted text
  | array [] => ['[', ']']
  | array (item :: rest) =>
    '[' :: spread.deeper.gap ++ item.written spread.deeper ++ itemsWritten spread.deeper rest
      ++ spread.gap ++ [']']
  | object [] => ['{', '}']
  | object ((key, value) :: rest) =>
    '{' :: spread.deeper.gap ++ quoted key ++ spread.colon ++ value.written spread.deeper
      ++ membersWritten spread.deeper rest ++ spread.gap ++ ['}']

/-- The items after the first, each after a comma. -/
def itemsWritten (spread : Spread) : List Value → List Char
  | [] => []
  | item :: rest => ',' :: spread.gap ++ item.written spread ++ itemsWritten spread rest

/-- The members after the first, each after a comma. -/
def membersWritten (spread : Spread) : List (String × Value) → List Char
  | [] => []
  | (key, value) :: rest =>
    ',' :: spread.gap ++ quoted key ++ spread.colon ++ value.written spread
      ++ membersWritten spread rest

end

/-- The text of a value on one line. -/
def compact (value : Value) : String :=
  String.ofList (value.written .line)

/-- The text of a value over indented lines. -/
def pretty (value : Value) : String :=
  String.ofList (value.written (.lines 0))

end Value

end PolicyPages.Json
