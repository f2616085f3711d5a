import PolicyPages.Text.Blank
import PolicyPages.Text.Lines

/-!
# Texts that are laid out anew

Three ways to lay out a text anew: its line feeds get carriage returns (`withReturns`), its lines are
indented (`Indents`), or a blank line is put in (`PutsBlank`). The first leaves the lines as they are
(`lines_withReturns`), and `PutsBlank.exists_lines` says where the last puts its line.

A text is taken apart line by line: it is empty, or one line without an end, or a line with its end and a
text after it (`text_induction`, `lines_append_feed`).
-/

namespace PolicyPages.Text

variable {line text : List Char}

/-! ### Texts line by line -/

@[simp] theorem lines_nil : lines [] = [] := rfl

/-- A line without an end is the only one of its text. -/
theorem lines_of_last (unended : '\n' ∉ line) (nonempty : line ≠ []) : lines line = [line] := by
  rw [lines, List.splitOn_eq_singleton unended]
  cases line with
  | nil => contradiction
  | cons c rest => rfl

theorem lines_append_feed (unended : '\n' ∉ line) (text : List Char) :
    lines (line ++ '\n' :: text) = dropReturn line :: lines text := by
  unfold lines
  rw [List.splitOn_append_cons_self_of_not_mem unended]
  cases pieces : text.splitOn '\n' with
  | nil => exact absurd pieces (List.splitOn_ne_nil _ _)
  | cons piece others =>
    simp only [List.dropLast_cons_cons, List.getLast?_cons_cons, List.map_cons]
    split <;> rfl

/-- What holds of the empty text and of a line without an end, and goes on from a text to one with a line
before it, holds of every text. -/
theorem text_induction {motive : List Char → Prop} (empty : motive [])
    (last : ∀ line, '\n' ∉ line → line ≠ [] → motive line)
    (ended : ∀ line text, '\n' ∉ line → motive text → motive (line ++ '\n' :: text))
    (text : List Char) : motive text := by
  by_cases feed : '\n' ∈ text
  · obtain ⟨line, rest, whole, unended⟩ := List.eq_append_cons_of_mem feed
    have : rest.length < text.length := by
      rw [whole, List.length_append, List.length_cons]
      omega
    rw [whole]
    exact ended line rest unended (text_induction empty last ended rest)
  · by_cases nothing : text = []
    · rw [nothing]
      exact empty
    · exact last text feed nothing
termination_by text.length

/-! ### Line ends -/

/-- A carriage return is put before every line feed. -/
def withReturns (text : List Char) : List Char :=
  text.flatMap fun c => if c = '\n' then ['\r', '\n'] else [c]

theorem withReturns_of_notMem (unended : '\n' ∉ line) : withReturns line = line := by
  induction line with
  | nil => rfl
  | cons c rest ih =>
    have other : c ≠ '\n' := (List.ne_of_not_mem_cons unended).symm
    rw [withReturns, List.flatMap_cons, if_neg other]
    exact congrArg (c :: ·) (ih (List.not_mem_of_not_mem_cons unended))

theorem withReturns_append_feed (unended : '\n' ∉ line) (text : List Char) :
    withReturns (line ++ '\n' :: text) = (line ++ ['\r']) ++ '\n' :: withReturns text := by
  have kept := withReturns_of_notMem unended
  unfold withReturns at kept ⊢
  rw [List.flatMap_append, kept, List.flatMap_cons, if_pos rfl, List.append_assoc]
  rfl

theorem dropReturn_concat (line : List Char) : dropReturn (line ++ ['\r']) = line := by
  simp [dropReturn]

/-- Carriage returns at the ends of lines belong to the ends. -/
theorem lines_withReturns : ∀ text, '\r' ∉ text → lines (withReturns text) = lines text := by
  apply text_induction
  case empty =>
    intro _
    rfl
  case last =>
    intro line unended _ _
    rw [withReturns_of_notMem unended]
  case ended =>
    intro line text unended ih free
    have inLine : '\r' ∉ line := fun mem => free (List.mem_append_left _ mem)
    have inText : '\r' ∉ text := fun mem =>
      free (List.mem_append_right _ (List.mem_cons_of_mem _ mem))
    have unended' : '\n' ∉ line ++ ['\r'] := by simp [unended]
    rw [withReturns_append_feed unended, lines_append_feed unended', dropReturn_concat, ih inText,
      lines_append_feed unended, dropReturn_eq_self fun last => inLine (List.mem_of_getLast? last)]

/-! ### Indentation -/

/-- Spaces and tabs. -/
def IsIndentation (blanks : List Char) : Prop :=
  ∀ c ∈ blanks, c = ' ' ∨ c = '\t'

instance (blanks : List Char) : Decidable (IsIndentation blanks) :=
  List.decidableBAll (fun c => c = ' ' ∨ c = '\t') blanks

/-- The second text is the first one with spaces and tabs in front of its lines. -/
inductive Indents : List Char → List Char → Prop where
  | empty : Indents [] []
  | last {blanks line} : IsIndentation blanks → '\n' ∉ line → line ≠ [] →
      Indents line (blanks ++ line)
  | ended {blanks line text indented} : IsIndentation blanks → '\n' ∉ line →
      Indents text indented → Indents (line ++ '\n' :: text) (blanks ++ line ++ '\n' :: indented)

theorem IsIndentation.isBlank {blanks : List Char} (h : IsIndentation blanks) :
    ∀ c ∈ blanks, isBlank c = true := by
  intro c mem
  rcases h c mem with rfl | rfl <;> decide

theorem IsIndentation.notMem {blanks : List Char} (h : IsIndentation blanks) {c : Char}
    (space : c ≠ ' ') (tab : c ≠ '\t') : c ∉ blanks :=
  fun mem => (h c mem).elim space tab

/-- What stands in front of a line stays when its end is cut. -/
theorem dropReturn_append {blanks : List Char} (h : IsIndentation blanks) (line : List Char) :
    dropReturn (blanks ++ line) = blanks ++ dropReturn line := by
  rcases List.eq_nil_or_concat line with rfl | ⟨front, c, rfl⟩
  · have noReturn := h.notMem (c := '\r') (by decide) (by decide)
    rw [List.append_nil, dropReturn_eq_self fun last => noReturn (List.mem_of_getLast? last)]
    exact (List.append_nil _).symm
  · rw [List.concat_eq_append, ← List.append_assoc]
    by_cases isReturn : c = '\r'
    · rw [isReturn, dropReturn_concat, dropReturn_concat]
    · rw [dropReturn_eq_self (by simpa using isReturn), dropReturn_eq_self (by simpa using isReturn),
        List.append_assoc]

/-! ### Blank lines -/

/-- A line that is blank throughout. -/
def IsBlankLine (line : List Char) : Prop :=
  '\n' ∉ line ∧ ∀ c ∈ line, isBlank c = true

instance (line : List Char) : Decidable (IsBlankLine line) :=
  decidable_of_iff ('\n' ∉ line ∧ line.all isBlank = true)
    (by rw [IsBlankLine, List.all_eq_true])

/-- The second text is the first one with a blank line put in as its line `row`, counted from one. After a
last line without an end, it is put in with an end for that line. -/
inductive PutsBlank : (row : Nat) → List Char → List Char → Prop where
  | here {blank text} : IsBlankLine blank → PutsBlank 1 text (blank ++ '\n' :: text)
  | later {row line text longer} : '\n' ∉ line → PutsBlank row text longer →
      PutsBlank (row + 1) (line ++ '\n' :: text) (line ++ '\n' :: longer)
  | atEnd {blank line} : '\n' ∉ line → line ≠ [] → IsBlankLine blank →
      PutsBlank 2 line (line ++ '\n' :: blank ++ ['\n'])

theorem dropReturn_sublist (line : List Char) : (dropReturn line).Sublist line := by
  unfold dropReturn
  split
  · exact List.dropLast_sublist line
  · exact List.Sublist.refl line

theorem IsBlankLine.dropReturn {blank : List Char} (h : IsBlankLine blank) :
    ∀ c ∈ dropReturn blank, isBlank c = true :=
  fun c mem => h.2 c ((dropReturn_sublist blank).subset mem)

/-- The blank line stands between the lines before it and those after it. A last line without an end may
lose a carriage return when it gets one. -/
theorem PutsBlank.exists_lines {row : Nat} {longer : List Char} (h : PutsBlank row text longer) :
    ∃ front back blank, lines text = front ++ back ∧ row = front.length + 1 ∧
      (∀ c ∈ blank, isBlank c = true) ∧
      (lines longer = front ++ blank :: back ∨
        ∃ init last, front = init ++ [last] ∧ back = [] ∧
          lines longer = init ++ [dropReturn last, blank]) := by
  induction h with
  | @here blank text isBlank =>
    exact ⟨[], lines text, _, rfl, rfl, isBlank.dropReturn, .inl (lines_append_feed isBlank.1 text)⟩
  | @later row line text longer unended _ ih =>
    obtain ⟨front, back, blank, cut, rfl, isBlank, put⟩ := ih
    refine ⟨dropReturn line :: front, back, blank, ?_, rfl, isBlank, ?_⟩
    · rw [lines_append_feed unended, cut, List.cons_append]
    · rw [lines_append_feed unended]
      rcases put with put | ⟨init, last, rfl, rfl, put⟩
      · exact .inl (by rw [put, List.cons_append])
      · exact .inr ⟨dropReturn line :: init, last, rfl, rfl, by rw [put, List.cons_append]⟩
  | @atEnd blank line unended nonempty isBlank =>
    refine ⟨[line], [], _, lines_of_last unended nonempty, rfl, isBlank.dropReturn, .inr ?_⟩
    refine ⟨[], line, rfl, rfl, ?_⟩
    rw [List.append_assoc, List.cons_append, lines_append_feed unended, lines_append_feed isBlank.1,
      lines_nil]
    rfl

end PolicyPages.Text
