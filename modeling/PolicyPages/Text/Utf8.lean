/-!
# UTF-8

Bytes read as UTF-8. What is no character is cut into the longest beginnings of characters, so that
each such piece counts as one replacement character where a text has to be shown.
-/

namespace PolicyPages.Text

/-- A character, or bytes that are none. -/
inductive Unit8 where
  | char (c : Char)
  | stray (bytes : List UInt8)
deriving DecidableEq, Repr

namespace Unit8

/-- The bytes of a unit. -/
def bytes : Unit8 → List UInt8
  | char c => String.utf8EncodeChar c
  | stray bytes => bytes

/-- The character that shows a unit. -/
def shown : Unit8 → Char
  | char c => c
  | stray _ => '\ufffd'

/-- A character of which some bytes have been read: these bytes, the value of their bits, and how
many bytes are missing. -/
structure Partial where
  bytes : List UInt8
  value : Nat
  missing : Nat

/-- Whether a byte may come next. The bounds on the second byte leave out long spellings, surrogates
and everything beyond the last character. -/
def Partial.accepts (found : Partial) (b : UInt8) : Bool :=
  if found.bytes = [0xE0] then 0xA0 ≤ b && b ≤ 0xBF
  else if found.bytes = [0xED] then 0x80 ≤ b && b ≤ 0x9F
  else if found.bytes = [0xF0] then 0x90 ≤ b && b ≤ 0xBF
  else if found.bytes = [0xF4] then 0x80 ≤ b && b ≤ 0x8F
  else 0x80 ≤ b && b ≤ 0xBF

/-- A byte that begins a character: what it completes, and what it leaves to be completed. -/
def first (b : UInt8) : List Unit8 × Option Partial :=
  if b < 0x80 then ([char (Char.ofNat b.toNat)], none)
  else if 0xC2 ≤ b && b ≤ 0xDF then ([], some ⟨[b], b.toNat % 0x20, 1⟩)
  else if 0xE0 ≤ b && b ≤ 0xEF then ([], some ⟨[b], b.toNat % 0x10, 2⟩)
  else if 0xF0 ≤ b && b ≤ 0xF4 then ([], some ⟨[b], b.toNat % 0x08, 3⟩)
  else ([stray [b]], none)

/-- One more byte: what it completes, and what it leaves to be completed. -/
def next (found : Option Partial) (b : UInt8) : List Unit8 × Option Partial :=
  match found with
  | none => first b
  | some found =>
    if found.accepts b then
      let value := found.value * 0x40 + b.toNat % 0x40
      if found.missing ≤ 1 then ([char (Char.ofNat value)], none)
      else ([], some ⟨found.bytes ++ [b], value, found.missing - 1⟩)
    else (stray found.bytes :: (first b).1, (first b).2)

/-- The units of a sequence of bytes, after a character of which some bytes have been read. -/
def decodeAfter (found : Option Partial) : List UInt8 → List Unit8
  | [] => (found.map fun found => stray found.bytes).toList
  | b :: rest => (next found b).1 ++ decodeAfter (next found b).2 rest

/-- The units of a sequence of bytes. -/
def decode (bytes : List UInt8) : List Unit8 :=
  decodeAfter none bytes

/-- The characters of units, if all of them are characters. -/
def chars? : List Unit8 → Option (List Char)
  | [] => some []
  | char c :: rest => (chars? rest).map (c :: ·)
  | stray _ :: _ => none

theorem chars?_eq_some_iff {units : List Unit8} {text : List Char} :
    chars? units = some text ↔ units = text.map char := by
  induction units generalizing text with
  | nil => cases text <;> simp [chars?]
  | cons unit rest ih =>
    cases unit with
    | stray bytes => cases text <;> simp [chars?]
    | char c => cases text <;> simp [chars?, ih, and_left_comm]

end Unit8

/-- The text of the bytes, if they are a text. -/
def decodeText? (bytes : List UInt8) : Option String :=
  (Unit8.chars? (Unit8.decode bytes)).map String.ofList

end PolicyPages.Text
