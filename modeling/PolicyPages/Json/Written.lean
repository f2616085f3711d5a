import PolicyPages.Json.Token

/-!
# JSON texts as they were written

A `Written` tree keeps what a value forgets: the order and the repetition of members, the digits of
a numeral, and quoted texts that hold half of a surrogate pair. It is what a reader works on that
passes some members over unread.

The tree is built from the words of a text by a machine with a stack of open arrays and objects
(`State.step`). Each word is one step, so reading is a fold and nests without a bound.
-/

namespace PolicyPages.Json

/-- A JSON text as it was written. -/
inductive Written where
  | null
  | bool (b : Bool)
  | number (numeral : Numeral)
  | string (content : Option String)
  | array (items : List Written)
  | object (members : List (Option String × Written))

namespace Written

/-- An array or object that is still open, with what it holds so far, last first. -/
inductive Frame where
  | array (items : List Written)
  | object (members : List (Option String × Written)) (key : Option String)

/-- What may come next. -/
inductive Expected where
  /-- A value; an array just opened may also close. -/
  | value (orClose : Bool)
  /-- A member's key; an object just opened may also close. -/
  | key (members : List (Option String × Written)) (orClose : Bool)
  /-- The colon after a key. -/
  | colon (members : List (Option String × Written)) (key : Option String)
  /-- What follows a complete value: a comma, a closing mark, or the end of the text. -/
  | after (complete : Written)

/-- A text read so far: the open arrays and objects, innermost first, and what may come next. -/
structure State where
  openFrames : List Frame
  expected : Expected

namespace State

/-- Nothing is read yet. -/
def start : State := ⟨[], .value false⟩

/-- A value that stands as one word. -/
def scalar? : Token → Option Written
  | .null => some .null
  | .bool b => some (.bool b)
  | .number numeral => some (.number numeral)
  | .string content => some (.string content)
  | _ => none

/-- Reads one word. -/
def step : State → Token → Option State
  | ⟨frames, .value _⟩, .openBracket => some ⟨.array [] :: frames, .value true⟩
  | ⟨frames, .value _⟩, .openBrace => some ⟨frames, .key [] true⟩
  | ⟨.array [] :: frames, .value true⟩, .closeBracket => some ⟨frames, .after (.array [])⟩
  | ⟨frames, .value _⟩, word => (scalar? word).map fun done => ⟨frames, .after done⟩
  | ⟨frames, .key _ true⟩, .closeBrace => some ⟨frames, .after (.object [])⟩
  | ⟨frames, .key members _⟩, .string key => some ⟨frames, .colon members key⟩
  | ⟨frames, .colon members key⟩, .colon => some ⟨.object members key :: frames, .value false⟩
  | ⟨.array items :: frames, .after done⟩, .comma =>
    some ⟨.array (done :: items) :: frames, .value false⟩
  | ⟨.array items :: frames, .after done⟩, .closeBracket =>
    some ⟨frames, .after (.array (done :: items).reverse)⟩
  | ⟨.object members key :: frames, .after done⟩, .comma =>
    some ⟨frames, .key ((key, done) :: members) false⟩
  | ⟨.object members key :: frames, .after done⟩, .closeBrace =>
    some ⟨frames, .after (.object ((key, done) :: members).reverse)⟩
  | _, _ => none

/-- The tree of a text that is complete. -/
def tree? : State → Option Written
  | ⟨[], .after done⟩ => some done
  | _ => none

end State

/-- The tree of a sequence of words. -/
def ofTokens? (words : List Token) : Option Written := do
  (← words.foldlM State.step State.start).tree?

/-- The tree of a text. -/
def ofText? (text : String) : Option Written := do
  ofTokens? (← tokens text.toList)

mutual

/-- How deeply arrays and objects nest. -/
def depth : Written → Nat
  | array items => itemsDepth items + 1
  | object members => membersDepth members + 1
  | _ => 0

/-- The greatest depth of several items. -/
def itemsDepth : List Written → Nat
  | [] => 0
  | item :: rest => max item.depth (itemsDepth rest)

/-- The greatest depth of several members. -/
def membersDepth : List (Option String × Written) → Nat
  | [] => 0
  | (_, value) :: rest => max value.depth (membersDepth rest)

end

end Written

end PolicyPages.Json
