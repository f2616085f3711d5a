import Mathlib.Data.List.TakeWhile
import PolicyPages.Json.Number
import PolicyPages.Json.Printing

/-!
# Written words

What is written as one word is read as that word, whatever follows it. A text in quotes has its text as
content (`token?_quoted`), for each character of it is read from its escape (`pieces?_quotedChar`,
`content?_pieceOf`). A whole number has its own numeral (`token?_integer`), if what follows does not go
on with a numeral (`EndsNumeral`), and the numeral has the number back (`integer?_ofInteger`).
-/

namespace PolicyPages.Json

/-! ### Words of a text -/

theorem tokens_cons_of_isSpace {c : Char} (space : isSpace c = true) (rest : List Char) :
    tokens (c :: rest) = tokens rest := by
  rw [tokens, if_pos space]

/-- No word begins with a space. -/
theorem isSpace_eq_false_of_token? {c : Char} {text rest : List Char} {word : Token}
    (h : token? (c :: text) = some (word, rest)) : isSpace c = false := by
  by_contra space
  simp only [Bool.not_eq_false, isSpace, Bool.or_eq_true, beq_iff_eq] at space
  rcases space with ((rfl | rfl) | rfl) | rfl <;>
    simp [token?, numeral?, unsigned?, digits, isWhole] at h

/-- The words of a text are its first one and those of what follows it. -/
theorem tokens_of_token? {text rest : List Char} {word : Token}
    (h : token? text = some (word, rest)) : tokens text = (tokens rest).map (word :: ·) := by
  cases text with
  | nil => simp [token?, numeral?, unsigned?, digits, isWhole] at h
  | cons c text =>
    rw [tokens, if_neg (by simp [isSpace_eq_false_of_token? h])]
    split
    · rename_i none
      rw [none] at h
      contradiction
    · rename_i found
      rw [found] at h
      obtain ⟨rfl, rfl⟩ := Prod.mk.inj (Option.some.inj h)
      rfl

/-! ### Texts in quotes -/

/-- The characters that are written by the number of their unit. -/
def byUnit (c : Char) : Bool :=
  c.toNat < 0x20 && c ∉ ['\x08', '\x0c', '\n', '\r', '\t']

/-- What is read where a character is written. -/
def pieceOf (c : Char) : Piece :=
  if byUnit c then .unit c.toNat else .char c

theorem hexDigit?_hexChar : ∀ n < 16, hexDigit? (hexChar n) = some n := by
  decide

/-- A control character that is written by the number of its unit is read as that unit. -/
theorem pieces?_unit {c : Char} (small : c.toNat < 0x20) (text : List Char) :
    pieces? ('\\' :: 'u' :: '0' :: '0' :: hexChar (c.toNat / 16) :: hexChar (c.toNat % 16) :: text) =
      (pieces? text).map fun found => (.unit c.toNat :: found.1, found.2) := by
  have unit : unit? '0' '0' (hexChar (c.toNat / 16)) (hexChar (c.toNat % 16)) = some c.toNat := by
    have zero : hexDigit? '0' = some 0 := rfl
    have high := hexDigit?_hexChar (c.toNat / 16) (by omega)
    have low := hexDigit?_hexChar (c.toNat % 16) (by omega)
    simp only [unit?, zero, high, low, Option.bind_eq_bind, Option.bind_some, Option.some.injEq]
    omega
  rw [pieces?, unit, Option.map_eq_bind]
  rfl

/-- A character that is written as it is, is read as it is. -/
theorem pieces?_char {c : Char} (noQuote : c ≠ '"') (noEscape : c ≠ '\\') (large : 0x20 ≤ c.toNat)
    (text : List Char) :
    pieces? (c :: text) = (pieces? text).map fun found => (.char c :: found.1, found.2) := by
  rw [pieces?, if_neg (Nat.not_lt.2 large), Option.map_eq_bind]
  · rfl
  · exact noQuote
  · exact fun _ _ _ _ _ same _ => noEscape same
  · exact fun _ _ same _ => noEscape same

/-- A character that is written as an escape of one letter is read from it. -/
theorem pieces?_letter {letter c : Char} (names : escaped? letter = some c) (text : List Char) :
    pieces? ('\\' :: letter :: text) =
      (pieces? text).map fun found => (.char c :: found.1, found.2) := by
  have other : letter ≠ 'u' := by
    rintro rfl
    contradiction
  rw [pieces?, names, Option.map_eq_bind]
  · rfl
  · exact fun _ _ _ _ _ same _ => other same

theorem pieces?_quotedChar (c : Char) (text : List Char) :
    pieces? (quotedChar c ++ text) =
      (pieces? text).map fun found => (pieceOf c :: found.1, found.2) := by
  unfold quotedChar
  split
  case h_8 =>
    rename_i noQuote noEscape noBackspace noFormFeed noLineFeed noReturn noTab
    split
    · rename_i small
      have special : pieceOf c = .unit c.toNat := by
        simp only [pieceOf, byUnit, small, decide_true, Bool.true_and]
        rw [if_pos]
        simpa using ⟨noBackspace, noFormFeed, noLineFeed, noReturn, noTab⟩
      rw [special]
      exact pieces?_unit small text
    · rename_i large
      have plain : pieceOf c = .char c := by
        simp [pieceOf, byUnit, large]
      rw [plain]
      exact pieces?_char noQuote noEscape (by omega) text
  all_goals exact pieces?_letter rfl text

/-- The piece of a character stands for the character. -/
theorem content?_pieceOf (c : Char) (found : List Piece) :
    content? (pieceOf c :: found) = (content? found).map (c :: ·) := by
  unfold pieceOf
  split
  · rename_i special
    have small : c.toNat < 0x20 := by
      simp only [byUnit, Bool.and_eq_true, decide_eq_true_eq] at special
      exact special.1
    rw [content?.eq_def]
    simp only [Char.ofNat_toNat]
    rw [if_pos (by simp; omega)]
  · rw [content?]

theorem pieces?_quoted (text rest : List Char) :
    pieces? (text.flatMap quotedChar ++ '"' :: rest) = some (text.map pieceOf, rest) := by
  induction text with
  | nil => rfl
  | cons c text ih =>
    rw [List.flatMap_cons, List.append_assoc, pieces?_quotedChar, ih]
    rfl

theorem content?_map_pieceOf (text : List Char) : content? (text.map pieceOf) = some text := by
  induction text with
  | nil => rfl
  | cons c text ih =>
    rw [List.map_cons, content?_pieceOf, ih]
    rfl

theorem token?_quoted (text : String) (rest : List Char) :
    token? (quoted text ++ rest) = some (.string (some text), rest) := by
  have written : quoted text ++ rest = '"' :: (text.toList.flatMap quotedChar ++ '"' :: rest) := by
    simp [quoted]
  rw [written, token?, pieces?_quoted]
  simp [content?_map_pieceOf]

/-! ### Whole numbers -/

/-- The decimal digits of a natural number. -/
def digitsOf (n : Nat) : List Nat :=
  (Nat.toDigits 10 n).map digit

theorem digitsOf_of_lt {n : Nat} (small : n < 10) : digitsOf n = [n] := by
  rw [digitsOf, Nat.toDigits_of_lt_base small, List.map_singleton]
  exact congrArg (fun d => [d]) (Nat.toNat_digitChar_sub_48_of_lt_ten small)

theorem digitsOf_of_le {n : Nat} (large : 10 ≤ n) :
    digitsOf n = digitsOf (n / 10) ++ [n % 10] := by
  rw [← digitsOf_of_lt (Nat.mod_lt n (by omega)), digitsOf, digitsOf, digitsOf, ← List.map_append,
    Nat.toDigits_of_base_le (by omega) large, Nat.toDigits_of_lt_base (Nat.mod_lt n (by omega))]

/-- No number but zero begins with the digit zero. -/
theorem exists_digitsOf_eq_cons {n : Nat} (pos : 0 < n) :
    ∃ d rest, digitsOf n = d :: rest ∧ d ≠ 0 := by
  induction n using Nat.strongRecOn with
  | ind n ih =>
    by_cases small : n < 10
    · exact ⟨n, [], digitsOf_of_lt small, by omega⟩
    · obtain ⟨d, rest, front, notZero⟩ := ih (n / 10) (by omega) (by omega)
      refine ⟨d, rest ++ [n % 10], ?_, notZero⟩
      rw [digitsOf_of_le (by omega), front]
      rfl

theorem isWhole_digitsOf (n : Nat) : isWhole (digitsOf n) = true := by
  by_cases zero : n = 0
  · subst zero
    rfl
  · obtain ⟨d, rest, front, notZero⟩ := exists_digitsOf_eq_cons (Nat.pos_of_ne_zero zero)
    rw [front, isWhole.eq_def]
    cases rest <;> simp [notZero]

theorem natOfDigits_digitsOf (n : Nat) : natOfDigits (digitsOf n) = n := by
  rw [natOfDigits, digitsOf, List.foldl_map]
  exact Nat.ofDigitChars_ten_toDigits

/-- The numeral that a whole number is written as. -/
def Numeral.ofInteger (n : Integer) : Numeral :=
  ⟨n.val < 0, digitsOf n.val.natAbs, [], none⟩

theorem Numeral.integer?_ofInteger (n : Integer) : (ofInteger n).integer? = some n := by
  unfold integer? ofInteger
  simp only [natOfDigits_digitsOf, Option.isNone_none]
  rw [if_pos (by simp)]
  by_cases negative : n.val < 0
  · rw [if_pos (by simpa using negative), if_neg (by omega)]
    have : -(n.val.natAbs : Int) = n.val := by omega
    rw [this, Integer.ofInt?_val]
  · rw [if_neg (by simpa using negative)]
    have : (n.val.natAbs : Int) = n.val := by omega
    rw [this, Integer.ofInt?_val]

/-- A numeral that stands before this text does not go on in it. -/
def EndsNumeral (rest : List Char) : Prop :=
  ∀ c ∈ rest.head?, c.isDigit = false ∧ c ∉ ['.', 'e', 'E']

theorem digits_toDigits {rest : List Char} (ends : EndsNumeral rest) (n : Nat) :
    digits (Nat.toDigits 10 n ++ rest) = (digitsOf n, rest) := by
  have all : ∀ c ∈ Nat.toDigits 10 n, c.isDigit = true := fun c mem =>
    Nat.isDigit_of_mem_toDigits (by omega) (by omega) mem
  have front : rest.takeWhile Char.isDigit = [] ∧ rest.dropWhile Char.isDigit = rest := by
    cases rest with
    | nil => exact ⟨rfl, rfl⟩
    | cons c rest => simp [(ends c rfl).1]
  rw [digits, List.takeWhile_append_of_pos all, List.dropWhile_append_of_pos all, front.1, front.2,
    List.append_nil]
  rfl

/-- A numeral of digits alone is read up to where it ends. -/
theorem unsigned?_toDigits {rest : List Char} (ends : EndsNumeral rest) (negative : Bool) (n : Nat) :
    unsigned? negative (Nat.toDigits 10 n ++ rest) =
      some (⟨negative, digitsOf n, [], none⟩, rest) := by
  have noFraction : fraction? rest = some ([], rest) := by
    unfold fraction?
    split
    · exact absurd (ends _ rfl).2 (by simp)
    · rfl
  have noExponent : exponent? rest = some (none, rest) := by
    unfold exponent?
    split
    any_goals exact absurd (ends _ rfl).2 (by simp)
    rfl
  rw [unsigned?, digits_toDigits ends, if_pos (isWhole_digitsOf n)]
  simp [noFraction, noExponent]

theorem toList_toString (n : Int) :
    (toString n).toList = (if n < 0 then ['-'] else []) ++ Nat.toDigits 10 n.natAbs := by
  cases n with
  | ofNat n => simp [Int.toString_eq_repr, Int.repr]
  | negSucc n => simp [Int.toString_eq_repr, Int.repr]

/-- A text that begins as a numeral begins with no other word. -/
theorem token?_eq_numeral? {c : Char} (begins : c.isDigit = true ∨ c = '-') (text : List Char) :
    token? (c :: text) =
      (numeral? (c :: text)).map fun found => (.number found.1, found.2) := by
  unfold token?
  split
  any_goals simp_all
  rw [Option.map_eq_bind]
  rfl

theorem token?_integer (n : Integer) {rest : List Char} (ends : EndsNumeral rest) :
    token? ((toString n.val).toList ++ rest) = some (.number (.ofInteger n), rest) := by
  rw [toList_toString]
  by_cases negative : n.val < 0
  · rw [if_pos negative, List.append_assoc, List.singleton_append,
      token?_eq_numeral? (.inr rfl), numeral?, unsigned?_toDigits ends]
    simp [Numeral.ofInteger, negative]
  · rw [if_neg negative, List.nil_append]
    obtain ⟨c, text, front⟩ : ∃ c text, Nat.toDigits 10 n.val.natAbs = c :: text :=
      List.exists_cons_of_ne_nil Nat.toDigits_ne_nil
    have mem : c ∈ Nat.toDigits 10 n.val.natAbs := by simp [front]
    have isDigit : c.isDigit = true := Nat.isDigit_of_mem_toDigits (by omega) (by omega) mem
    have noSign : numeral? (c :: text ++ rest) = unsigned? false (c :: text ++ rest) := by
      unfold numeral?
      split
      · simp_all
      · rfl
    rw [front, List.cons_append, token?_eq_numeral? (.inl isDigit), ← List.cons_append, noSign,
      ← front, unsigned?_toDigits ends]
    simp [Numeral.ofInteger, negative]

end PolicyPages.Json
