import Mathlib.Data.String.Basic

/-!
# Texts in the order of their bytes

Texts are compared character by character. Compared by the bytes of their UTF-8 encodings they come in
the same order (`bytes_lt_iff`): the bytes of a character decide as the character does
(`utf8EncodeChar_append_lt`), because a longer encoding begins with a greater byte and one of the same
length is a number in base 64.
-/

namespace PolicyPages.Text

/-- The bytes of a text in UTF-8. -/
def bytes (text : String) : List UInt8 :=
  text.toUTF8.data.toList

theorem bytes_eq_flatMap (text : String) :
    bytes text = text.toList.flatMap String.utf8EncodeChar := by
  rw [bytes, String.toUTF8_eq_toByteArray, ← String.utf8Encode_toList, List.utf8Encode,
    List.data_toByteArray]

theorem ofNat_cons_lt_iff {m n : Nat} (byte : m < 256) (byte' : n < 256) {rest rest' : List UInt8} :
    UInt8.ofNat m :: rest < UInt8.ofNat n :: rest' ↔ m < n ∨ m = n ∧ rest < rest' := by
  rw [List.cons_lt_cons_iff, UInt8.ofNat_lt_iff_lt byte byte', ← UInt8.toNat_inj,
    UInt8.toNat_ofNat_of_lt' byte, UInt8.toNat_ofNat_of_lt' byte']

/-- Of two different characters the bytes decide, whatever stands after them. -/
theorem utf8EncodeChar_append_lt {c d : Char} (less : c < d) (rest rest' : List UInt8) :
    String.utf8EncodeChar c ++ rest < String.utf8EncodeChar d ++ rest' := by
  have code : c.val.toNat < d.val.toNat := less
  have last : d.val.toNat < 0x110000 := by
    rcases d.valid with low | ⟨-, high⟩
    · exact low.trans (by decide)
    · exact high
  have digits (n : Nat) : n / 4096 = n / 64 / 64 ∧ n / 262144 = n / 64 / 64 / 64 := by
    simp only [Nat.div_div_eq_div_mul, and_self]
  simp only [String.utf8EncodeChar, digits]
  -- A case for each pair of lengths; in each, the bytes are the digits of the two numbers.
  split_ifs <;>
    simp (disch := omega) only [List.cons_append, List.nil_append, ofNat_cons_lt_iff] <;>
    omega

theorem flatMap_utf8EncodeChar_lt {text text' : List Char} (less : text < text') :
    text.flatMap String.utf8EncodeChar < text'.flatMap String.utf8EncodeChar := by
  induction text generalizing text' with
  | nil =>
    cases text' with
    | nil => exact absurd less (List.not_lt_nil _)
    | cons d rest' =>
      obtain ⟨b, others, encoded⟩ := List.exists_cons_of_ne_nil (String.utf8EncodeChar_ne_nil (c := d))
      rw [List.flatMap_cons, List.flatMap_nil, encoded]
      exact List.nil_lt_cons _ _
  | cons c rest ih =>
    cases text' with
    | nil => exact absurd less (List.not_lt_nil _)
    | cons d rest' =>
      rw [List.flatMap_cons, List.flatMap_cons]
      rcases List.cons_lt_cons_iff.1 less with first | ⟨rfl, later⟩
      · exact utf8EncodeChar_append_lt first _ _
      · exact List.append_left_lt (ih later)

theorem bytes_lt_iff {text text' : String} : bytes text < bytes text' ↔ text < text' := by
  have forwards {a b : String} (less : a < b) : bytes a < bytes b := by
    rw [bytes_eq_flatMap, bytes_eq_flatMap]
    exact flatMap_utf8EncodeChar_lt (String.lt_iff_toList_lt.1 less)
  constructor
  · intro less
    rcases lt_trichotomy text text' with before | rfl | behind
    · exact before
    · exact absurd less (List.lt_irrefl _)
    · exact absurd (forwards behind) (List.lt_asymm less)
  · exact forwards

end PolicyPages.Text
