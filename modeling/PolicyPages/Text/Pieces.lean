/-!
# Texts in pieces

A text is cut into pieces at a mark, and pieces are joined with a mark between them. What stands in
a piece stands in the text (`mem_of_mem_splitOn`), what stands in joined pieces stands in one of
them (`mem_of_mem_intercalate`), and joined pieces begin with the first and end with the last one. A word
between two marks is one of the pieces in the middle (`infix_intercalate_iff`).
-/

namespace PolicyPages.Text

variable {α : Type}

/-- A piece between two marks holds no mark, and nothing that the text does not hold. -/
theorem mem_of_mem_splitOn [BEq α] [LawfulBEq α] {text piece : List α} {mark : α}
    (h : piece ∈ text.splitOn mark) : ∀ c ∈ piece, c ≠ mark ∧ c ∈ text := by
  induction text generalizing piece with
  | nil => simp_all
  | cons d rest ih =>
    rw [List.splitOn_cons_eq_if_modifyHead] at h
    split at h
    · rcases List.mem_cons.1 h with rfl | mem
      · simp
      · exact fun c inPiece => ⟨(ih mem c inPiece).1, List.mem_cons_of_mem _ (ih mem c inPiece).2⟩
    · rename_i other
      cases pieces : rest.splitOn mark with
      | nil => exact absurd pieces (List.splitOn_ne_nil mark rest)
      | cons first others =>
        rw [pieces] at h ih
        rcases List.mem_cons.1 h with rfl | mem
        · intro c inPiece
          rcases List.mem_cons.1 inPiece with rfl | inFirst
          · exact ⟨by simpa using other, List.mem_cons_self⟩
          · have := ih List.mem_cons_self c inFirst
            exact ⟨this.1, List.mem_cons_of_mem _ this.2⟩
        · intro c inPiece
          have := ih (List.mem_cons_of_mem _ mem) c inPiece
          exact ⟨this.1, List.mem_cons_of_mem _ this.2⟩

/-- If no mark stands in the end of a text, a piece has all of that end, or nothing of it. -/
theorem suffix_or_of_mem_splitOn [BEq α] [LawfulBEq α] {front last piece : List α} {mark : α}
    (unmarked : mark ∉ last) (h : piece ∈ (front ++ last).splitOn mark) :
    last <:+ piece ∨ ∀ c ∈ piece, c ∈ front := by
  induction front generalizing piece with
  | nil =>
    rw [List.nil_append, List.splitOn_eq_singleton unmarked, List.mem_singleton] at h
    rw [h]
    exact .inl (List.suffix_refl _)
  | cons d rest ih =>
    rw [List.cons_append, List.splitOn_cons_eq_if_modifyHead] at h
    have longer {piece : List α} (mem : piece ∈ (rest ++ last).splitOn mark) :
        last <:+ piece ∨ ∀ c ∈ piece, c ∈ d :: rest :=
      (ih mem).imp_right fun inRest c inPiece => List.mem_cons_of_mem _ (inRest c inPiece)
    split at h
    · rcases List.mem_cons.1 h with rfl | mem
      · exact .inr (by simp)
      · exact longer mem
    · cases pieces : (rest ++ last).splitOn mark with
      | nil => exact absurd pieces (List.splitOn_ne_nil mark _)
      | cons first others =>
        rw [pieces] at h longer
        rcases List.mem_cons.1 h with rfl | mem
        · refine (longer List.mem_cons_self).imp (fun suffix => suffix.trans (List.suffix_cons d _)) ?_
          exact fun inside => List.forall_mem_cons.2 ⟨List.mem_cons_self, inside⟩
        · exact longer (List.mem_cons_of_mem _ mem)

/-- If no mark stands in the end of a text, its last piece has all of that end. -/
theorem suffix_of_getLast?_splitOn [BEq α] [LawfulBEq α] {front ending last : List α} {mark : α}
    (unmarked : mark ∉ ending) (h : ((front ++ ending).splitOn mark).getLast? = some last) :
    ending <:+ last := by
  induction front generalizing last with
  | nil =>
    rw [List.nil_append, List.splitOn_eq_singleton unmarked] at h
    rw [← Option.some.inj h]
    exact List.suffix_refl _
  | cons d rest ih =>
    rw [List.cons_append, List.splitOn_cons_eq_if_modifyHead] at h
    cases pieces : (rest ++ ending).splitOn mark with
    | nil => exact absurd pieces (List.splitOn_ne_nil mark _)
    | cons first others =>
      rw [pieces] at h ih
      split at h
      · exact ih h
      · cases others with
        | nil =>
          rw [← Option.some.inj h]
          exact (ih rfl).trans (List.suffix_cons d _)
        | cons next more => exact ih h

section

variable [DecidableEq α] {mark : α} {front : List α}

theorem all_ne_of_notMem (unmarked : mark ∉ front) : ∀ c ∈ front, decide (c ≠ mark) = true :=
  fun c mem => decide_eq_true fun same : c = mark => unmarked (same ▸ mem)

/-- What stands before the first mark. -/
theorem takeWhile_ne_append (unmarked : mark ∉ front) (rest : List α) :
    (front ++ mark :: rest).takeWhile (· ≠ mark) = front := by
  rw [List.takeWhile_append_of_pos (all_ne_of_notMem unmarked)]
  simp

theorem dropWhile_ne_append (unmarked : mark ∉ front) (rest : List α) :
    (front ++ mark :: rest).dropWhile (· ≠ mark) = mark :: rest := by
  rw [List.dropWhile_append_of_pos (all_ne_of_notMem unmarked)]
  simp

end

theorem head_prefix_intercalate {mark : List α} {pieces : List (List α)} (h : pieces ≠ []) :
    pieces.head h <+: mark.intercalate pieces := by
  match pieces with
  | [piece] => simp
  | piece :: next :: others =>
    rw [List.intercalate_cons_cons, List.append_assoc]
    exact List.prefix_append _ _

theorem intercalate_concat (mark : List α) {pieces : List (List α)} (h : pieces ≠ [])
    (last : List α) :
    mark.intercalate (pieces ++ [last]) = mark.intercalate pieces ++ mark ++ last := by
  induction pieces with
  | nil => contradiction
  | cons piece rest ih =>
    cases rest with
    | nil => simp
    | cons next others =>
      rw [List.cons_append, List.cons_append, List.intercalate_cons_cons,
        List.intercalate_cons_cons, ← List.cons_append, ih (by simp)]
      simp only [List.append_assoc]

/-- A piece stands in a list, and is neither its first nor its last one. -/
def StandsInside (piece : α) (pieces : List α) : Prop :=
  ∃ front back, front ≠ [] ∧ back ≠ [] ∧ pieces = front ++ piece :: back

theorem standsInside_map_iff {β : Type} {f : α → β} (injective : ∀ a b, f a = f b → a = b) {piece : α}
    {pieces : List α} : StandsInside (f piece) (pieces.map f) ↔ StandsInside piece pieces := by
  constructor
  · rintro ⟨front, back, nonemptyFront, nonemptyBack, cut⟩
    obtain ⟨before, rest, rfl, rfl, later⟩ := List.map_eq_append_iff.1 cut
    obtain ⟨middle, after, rfl, same, rfl⟩ := List.map_eq_cons_iff.1 later
    obtain rfl := injective middle piece same
    exact ⟨before, after, by simpa using nonemptyFront, by simpa using nonemptyBack, rfl⟩
  · rintro ⟨before, after, nonemptyBefore, nonemptyAfter, rfl⟩
    exact ⟨before.map f, after.map f, by simpa using nonemptyBefore, by simpa using nonemptyAfter,
      by simp⟩

/-- A word between two marks is one of the pieces in the middle. -/
theorem infix_intercalate_iff [BEq α] [LawfulBEq α] {mark : α} {word : List α}
    {pieces : List (List α)} (wordPlain : mark ∉ word) (plain : ∀ piece ∈ pieces, mark ∉ piece)
    (nonempty : pieces ≠ []) :
    mark :: word ++ [mark] <:+: [mark].intercalate pieces ↔ StandsInside word pieces := by
  -- Around the word, the text is cut into what comes before, the word, and what comes after.
  have cut (before after : List α) : (before ++ (mark :: word ++ [mark]) ++ after).splitOn mark =
      before.splitOn mark ++ word :: after.splitOn mark := by
    simp only [List.append_assoc, List.cons_append, List.nil_append,
      List.splitOn_append_cons_self, List.splitOn_eq_singleton wordPlain]
  constructor
  · rintro ⟨before, after, whole⟩
    refine ⟨before.splitOn mark, after.splitOn mark, List.splitOn_ne_nil mark before,
      List.splitOn_ne_nil mark after, ?_⟩
    rw [← cut, whole, List.splitOn_intercalate mark plain nonempty]
  · rintro ⟨front, back, nonemptyFront, nonemptyBack, rfl⟩
    have plainFront : ∀ piece ∈ front, mark ∉ piece := by
      intro piece mem
      exact plain piece (List.mem_append_left _ mem)
    have plainBack : ∀ piece ∈ back, mark ∉ piece := by
      intro piece mem
      exact plain piece (List.mem_append_right _ (List.mem_cons_of_mem _ mem))
    refine ⟨[mark].intercalate front, [mark].intercalate back, ?_⟩
    have pieces := cut ([mark].intercalate front) ([mark].intercalate back)
    rw [List.splitOn_intercalate mark plainFront nonemptyFront,
      List.splitOn_intercalate mark plainBack nonemptyBack] at pieces
    rw [← pieces, List.intercalate_splitOn]

/-- Fewer pieces make up a part of the text. -/
theorem intercalate_sublist (mark : List α) {pieces others : List (List α)}
    (h : pieces.Sublist others) :
    (mark.intercalate pieces).Sublist (mark.intercalate others) := by
  induction h with
  | slnil => exact .slnil
  | @cons pieces others piece h ih =>
    cases others with
    | nil => simp [List.sublist_nil.1 h]
    | cons next rest =>
      rw [List.intercalate_cons_cons]
      exact ih.trans (List.sublist_append_right _ _)
  | @cons_cons pieces others piece h ih =>
    match pieces, others, h with
    | [], _, _ =>
      rw [List.intercalate_singleton]
      exact (head_prefix_intercalate (List.cons_ne_nil piece _)).sublist
    | first :: more, next :: rest, _ =>
      rw [List.intercalate_cons_cons, List.intercalate_cons_cons]
      exact (List.Sublist.refl _).append ih

end PolicyPages.Text
