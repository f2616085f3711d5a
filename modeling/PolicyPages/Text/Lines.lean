/-!
# Lines

A text is cut at its line feeds. A carriage return right before a line feed belongs to the line's
end and is left out; the last line counts only when it is not empty, and it keeps its carriage
return, since no line feed follows.
-/

namespace PolicyPages.Text

/-- One carriage return at the end is left out. -/
def dropReturn (line : List Char) : List Char :=
  match line.getLast? with
  | some '\r' => line.dropLast
  | _ => line

/-- The lines of a text, without their ends. -/
def lines (text : List Char) : List (List Char) :=
  let pieces := text.splitOn '\n'
  let ended := pieces.dropLast.map dropReturn
  match pieces.getLast? with
  | none | some [] => ended
  | some last => ended ++ [last]

theorem dropReturn_eq_self {line : List Char} (h : line.getLast? ≠ some '\r') :
    dropReturn line = line := by
  unfold dropReturn
  split
  · exact absurd ‹_› h
  · rfl

/-- The text of lines, each with a line feed at its end. -/
def unlines (lines : List (List Char)) : List Char :=
  lines.flatMap (· ++ ['\n'])

theorem splitOn_unlines {ls : List (List Char)} (h : ∀ line ∈ ls, '\n' ∉ line) :
    (unlines ls).splitOn '\n' = ls ++ [[]] := by
  induction ls with
  | nil => rfl
  | cons line rest ih =>
    have hline : '\n' ∉ line := h line List.mem_cons_self
    have hrest := ih fun other mem => h other (List.mem_cons_of_mem _ mem)
    simp only [unlines, List.flatMap_cons, List.append_assoc, List.singleton_append] at hrest ⊢
    rw [List.splitOn_append_cons_self_of_not_mem hline, hrest, List.cons_append]

end PolicyPages.Text
