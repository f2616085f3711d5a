/-!
# The words of a JSON text

A JSON text is cut into punctuation, the three names, numerals and quoted texts; spaces, tabs and
line ends between them are dropped. `tokens` has no answer for a text that holds anything else.

A quoted text may name half of a surrogate pair on its own. That is no text, yet it is well formed
where the text is passed over unread, so the token of a quoted text holds no content then.
-/

namespace PolicyPages.Json

/-- A decimal numeral as it was written. -/
structure Numeral where
  negative : Bool
  whole : List Nat
  fraction : List Nat
  exponent : Option Int
deriving DecidableEq, Repr

/-- A word of a JSON text. -/
inductive Token where
  | openBracket | closeBracket | openBrace | closeBrace | comma | colon
  | null
  | bool (b : Bool)
  | number (numeral : Numeral)
  | string (content : Option String)
deriving DecidableEq, Repr

/-! ### Numerals -/

/-- The value of a decimal digit. -/
def digit (c : Char) : Nat :=
  c.toNat - '0'.toNat

/-- The digits at the front of a text, and what follows them. -/
def digits (text : List Char) : List Nat × List Char :=
  ((text.takeWhile Char.isDigit).map digit, text.dropWhile Char.isDigit)

/-- The natural number that decimal digits stand for. -/
def natOfDigits (ds : List Nat) : Nat :=
  ds.foldl (fun n d => 10 * n + d) 0

/-- The part of a numeral after a point, where at least one digit has to stand. -/
def fraction? : List Char → Option (List Nat × List Char)
  | '.' :: text =>
    match digits text with
    | ([], _) => none
    | found => some found
  | text => some ([], text)

/-- The digits of an exponent, of which there is at least one. -/
def exponentDigits? (negative : Bool) (text : List Char) : Option (Option Int × List Char) :=
  match digits text with
  | ([], _) => none
  | (ds, rest) => some (some (if negative then -(natOfDigits ds) else natOfDigits ds), rest)

/-- An exponent with its mark, if one stands here. -/
def exponent? : List Char → Option (Option Int × List Char)
  | 'e' :: '+' :: text | 'E' :: '+' :: text => exponentDigits? false text
  | 'e' :: '-' :: text | 'E' :: '-' :: text => exponentDigits? true text
  | 'e' :: text | 'E' :: text => exponentDigits? false text
  | text => some (none, text)

/-- Whether digits may stand before the point: there is one, and no zero before another digit. -/
def isWhole : List Nat → Bool
  | [] => false
  | [_] => true
  | 0 :: _ => false
  | _ => true

/-- A numeral after its sign. -/
def unsigned? (negative : Bool) (text : List Char) : Option (Numeral × List Char) :=
  if isWhole (digits text).1 then do
    let (fraction, rest) ← fraction? (digits text).2
    let (exponent, rest) ← exponent? rest
    some (⟨negative, (digits text).1, fraction, exponent⟩, rest)
  else none

/-- A numeral at the front of a text. -/
def numeral? : List Char → Option (Numeral × List Char)
  | '-' :: text => unsigned? true text
  | text => unsigned? false text

/-! ### Quoted texts -/

/-- The value of a hexadecimal digit. -/
def hexDigit? (c : Char) : Option Nat :=
  if '0' ≤ c && c ≤ '9' then some (c.toNat - '0'.toNat)
  else if 'a' ≤ c && c ≤ 'f' then some (c.toNat - 'a'.toNat + 10)
  else if 'A' ≤ c && c ≤ 'F' then some (c.toNat - 'A'.toNat + 10)
  else none

/-- The 16-bit unit of four hexadecimal digits. -/
def unit? (a b c d : Char) : Option Nat := do
  some (((← hexDigit? a) * 16 + (← hexDigit? b)) * 16 * 16 + (← hexDigit? c) * 16 + (← hexDigit? d))

/-- The character that an escape with one letter names. -/
def escaped? : Char → Option Char
  | '"' => some '"'
  | '\\' => some '\\'
  | '/' => some '/'
  | 'b' => some '\x08'
  | 'f' => some '\x0c'
  | 'n' => some '\n'
  | 'r' => some '\r'
  | 't' => some '\t'
  | _ => none

/-- What stands in a quoted text: a character, or a 16-bit unit written as an escape. -/
inductive Piece where
  | char (c : Char)
  | unit (n : Nat)

/-- The pieces up to the closing quote, and what follows it. -/
def pieces? : List Char → Option (List Piece × List Char)
  | [] => none
  | '"' :: rest => some ([], rest)
  | '\\' :: 'u' :: a :: b :: c :: d :: rest => do
    let n ← unit? a b c d
    let (found, rest) ← pieces? rest
    some (.unit n :: found, rest)
  | '\\' :: c :: rest => do
    let c ← escaped? c
    let (found, rest) ← pieces? rest
    some (.char c :: found, rest)
  | c :: rest => do
    if c.toNat < 0x20 then none
    else
      let (found, rest) ← pieces? rest
      some (.char c :: found, rest)

/-- The text of the pieces, if every half of a surrogate pair has its other half. -/
def content? : List Piece → Option (List Char)
  | [] => some []
  | .char c :: rest => (content? rest).map (c :: ·)
  | .unit n :: rest =>
    if n < 0xD800 || 0xE000 ≤ n then (content? rest).map (Char.ofNat n :: ·)
    else
      match rest with
      | .unit m :: rest =>
        if n < 0xDC00 && 0xDC00 ≤ m && m < 0xE000 then
          (content? rest).map (Char.ofNat (0x10000 + (n - 0xD800) * 0x400 + (m - 0xDC00)) :: ·)
        else none
      | _ => none

/-! ### Tokens -/

/-- The characters that may stand between two words. -/
def isSpace (c : Char) : Bool :=
  c == ' ' || c == '\n' || c == '\t' || c == '\r'

/-- The word at the front of a text that begins with no space, and what follows it. -/
def token? : List Char → Option (Token × List Char)
  | '[' :: rest => some (.openBracket, rest)
  | ']' :: rest => some (.closeBracket, rest)
  | '{' :: rest => some (.openBrace, rest)
  | '}' :: rest => some (.closeBrace, rest)
  | ',' :: rest => some (.comma, rest)
  | ':' :: rest => some (.colon, rest)
  | 'n' :: 'u' :: 'l' :: 'l' :: rest => some (.null, rest)
  | 't' :: 'r' :: 'u' :: 'e' :: rest => some (.bool true, rest)
  | 'f' :: 'a' :: 'l' :: 's' :: 'e' :: rest => some (.bool false, rest)
  | '"' :: rest => do
    let (found, rest) ← pieces? rest
    some (.string ((content? found).map String.ofList), rest)
  | text => do
    let (numeral, rest) ← numeral? text
    some (.number numeral, rest)

theorem length_dropWhile_le (p : Char → Bool) (text : List Char) :
    (text.dropWhile p).length ≤ text.length :=
  (List.dropWhile_sublist p).length_le

theorem fraction?_length {text rest : List Char} {ds : List Nat}
    (h : fraction? text = some (ds, rest)) : rest.length ≤ text.length := by
  unfold fraction? digits at h
  split at h
  · rename_i tail
    have := length_dropWhile_le Char.isDigit tail
    split at h
    · simp at h
    · simp only [Option.some.injEq, Prod.mk.injEq] at h
      simp only [List.length_cons]
      rw [← h.2]
      omega
  · simp_all

theorem exponentDigits?_length {negative : Bool} {text rest : List Char} {e : Option Int}
    (h : exponentDigits? negative text = some (e, rest)) : rest.length ≤ text.length := by
  have := length_dropWhile_le Char.isDigit text
  unfold exponentDigits? digits at h
  split at h
  · simp at h
  · rename_i pair
    simp only [Prod.mk.injEq] at pair
    simp only [Option.some.injEq, Prod.mk.injEq] at h
    rw [← h.2, ← pair.2]
    exact this

theorem exponent?_length {text rest : List Char} {e : Option Int}
    (h : exponent? text = some (e, rest)) : rest.length ≤ text.length := by
  unfold exponent? at h
  split at h <;> first
    | simp only [Option.some.injEq, Prod.mk.injEq] at h; simp [h.2]
    | have bound := exponentDigits?_length h; simp only [List.length_cons]; omega

theorem digits_length_lt {text : List Char} (h : isWhole (digits text).1 = true) :
    (digits text).2.length < text.length := by
  have whole : text.takeWhile Char.isDigit ≠ [] := by
    intro none
    simp [digits, none, isWhole] at h
  have := congrArg List.length (List.takeWhile_append_dropWhile : text.takeWhile Char.isDigit ++ text.dropWhile Char.isDigit = text)
  have := List.length_pos_iff.2 whole
  simp only [List.length_append] at *
  simp only [digits]
  omega

theorem unsigned?_length {negative : Bool} {text rest : List Char} {n : Numeral}
    (h : unsigned? negative text = some (n, rest)) : rest.length < text.length := by
  unfold unsigned? at h
  split at h
  · rename_i found
    obtain ⟨⟨ds, rest₁⟩, h₁, h⟩ := Option.bind_eq_some_iff.1 h
    obtain ⟨⟨e, rest₂⟩, h₂, h⟩ := Option.bind_eq_some_iff.1 h
    have := fraction?_length h₁
    have := exponent?_length h₂
    have := digits_length_lt found
    simp only [Option.some.injEq, Prod.mk.injEq] at h
    rw [← h.2]
    omega
  · simp at h

theorem numeral?_length {text rest : List Char} {n : Numeral}
    (h : numeral? text = some (n, rest)) : rest.length < text.length := by
  unfold numeral? at h
  split at h
  · have := unsigned?_length h
    simp only [List.length_cons]
    omega
  · exact unsigned?_length h

theorem pieces?_length {text rest : List Char} {found : List Piece}
    (h : pieces? text = some (found, rest)) : rest.length < text.length := by
  fun_induction pieces? text generalizing found rest with
  | case1 => simp at h
  | case2 => simp_all
  | case3 a b c d tail ih =>
    obtain ⟨n, _, h⟩ := Option.bind_eq_some_iff.1 h
    obtain ⟨⟨more, rest₁⟩, h₁, h⟩ := Option.bind_eq_some_iff.1 h
    simp only [Option.some.injEq, Prod.mk.injEq] at h
    have := ih h₁
    simp only [List.length_cons, ← h.2]
    omega
  | case4 c tail _ ih =>
    obtain ⟨n, _, h⟩ := Option.bind_eq_some_iff.1 h
    obtain ⟨⟨more, rest₁⟩, h₁, h⟩ := Option.bind_eq_some_iff.1 h
    simp only [Option.some.injEq, Prod.mk.injEq] at h
    have := ih h₁
    simp only [List.length_cons, ← h.2]
    omega
  | case5 => simp at h
  | case6 c tail _ _ _ _ ih =>
    obtain ⟨⟨more, rest₁⟩, h₁, h⟩ := Option.bind_eq_some_iff.1 h
    simp only [Option.some.injEq, Prod.mk.injEq] at h
    have := ih h₁
    simp only [List.length_cons, ← h.2]
    omega

/-- Every word takes at least one character. -/
theorem token?_length {text rest : List Char} {t : Token}
    (h : token? text = some (t, rest)) : rest.length < text.length := by
  unfold token? at h
  split at h <;> first
    | (simp only [Option.some.injEq, Prod.mk.injEq] at h; simp only [← h.2, List.length_cons]; omega)
    | skip
  · obtain ⟨⟨found, rest₁⟩, h₁, h⟩ := Option.bind_eq_some_iff.1 h
    simp only [Option.some.injEq, Prod.mk.injEq] at h
    have := pieces?_length h₁
    simp only [← h.2, List.length_cons]
    omega
  · obtain ⟨⟨n, rest₁⟩, h₁, h⟩ := Option.bind_eq_some_iff.1 h
    simp only [Option.some.injEq, Prod.mk.injEq] at h
    have := numeral?_length h₁
    simp only [← h.2]
    exact this

/-- The words of a text, in order. -/
def tokens (text : List Char) : Option (List Token) :=
  match text with
  | [] => some []
  | c :: rest =>
    if isSpace c then tokens rest
    else
      match h : token? (c :: rest) with
      | none => none
      | some (t, after) =>
        have : after.length < (c :: rest).length := token?_length h
        (tokens after).map (t :: ·)
termination_by text.length
decreasing_by
  · exact Nat.lt_succ_self rest.length
  · exact this

end PolicyPages.Json
