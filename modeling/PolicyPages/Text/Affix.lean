/-!
# Beginnings and ends of texts

Tests and cuts at either end of a text, and the search for a text inside another. All of them are
read off the lists of characters, where `List` has the lemmas.
-/

namespace PolicyPages.Text

/-- What remains of a text after a beginning, if it begins so. -/
def dropStart? : (start text : List Char) → Option (List Char)
  | [], text => some text
  | _ :: _, [] => none
  | a :: start, b :: text => if a = b then dropStart? start text else none

theorem dropStart?_eq_some_iff {start text rest : List Char} :
    dropStart? start text = some rest ↔ text = start ++ rest := by
  induction start generalizing text with
  | nil => simp [dropStart?]
  | cons a start ih =>
    cases text with
    | nil => simp [dropStart?]
    | cons b text =>
      by_cases h : a = b
      · simp [dropStart?, h, ih]
      · simp [dropStart?, h, Ne.symm h]

/-- Whether a text ends in another. -/
def endsWith (text ending : String) : Bool :=
  ending.toList.isSuffixOf text.toList

theorem endsWith_iff {text ending : String} :
    endsWith text ending = true ↔ ending.toList <:+ text.toList := by
  simp [endsWith]

/-- What precedes an ending, if the text ends so. -/
def dropEnd? (text ending : String) : Option String :=
  if endsWith text ending then
    some (String.ofList (text.toList.take (text.toList.length - ending.toList.length)))
  else none

theorem endsWith_append (front ending : String) : endsWith (front ++ ending) ending = true := by
  rw [endsWith_iff, String.toList_append]
  exact List.suffix_append _ _

theorem dropEnd?_append (front ending : String) : dropEnd? (front ++ ending) ending = some front := by
  rw [dropEnd?, if_pos (endsWith_append front ending), String.toList_append, List.length_append,
    Nat.add_sub_cancel, List.take_left, String.ofList_toList]

/-- Whether a text stands somewhere inside another. -/
def occursIn (part : List Char) : List Char → Bool
  | [] => part.isEmpty
  | c :: rest => part.isPrefixOf (c :: rest) || occursIn part rest

theorem occursIn_iff {part text : List Char} :
    occursIn part text = true ↔ part <:+: text := by
  induction text with
  | nil => simp [occursIn]
  | cons c rest ih =>
    simp [occursIn, ih, List.infix_cons_iff]

end PolicyPages.Text
