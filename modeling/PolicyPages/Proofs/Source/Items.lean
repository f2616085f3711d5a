import PolicyPages.Proofs.Source.LineKind

/-!
# The items of a text

Where the items of a text come from: each lies on a line of its own (`row_of_mem_itemsFrom`), none
comes from comments (`itemsFrom_comments`), the blocks lie on the markers (`rows_blocks_itemsFrom`), and
the segments of a package are plain ones (`isSegment_of_mem_itemsFrom`).
-/

namespace PolicyPages.Source

/-- The item that a line brings, from the line and those after it. -/
def item? (row : Nat) (rest : List Line) : Line → Option Item
  | .marker => some (.block ⟨row, bodyText rest⟩)
  | .package segments => some (.package row segments)
  | .statement text => some (.statement row text)
  | .blank | .comment _ => none

theorem itemsFrom_cons (row : Nat) (line : Line) (rest : List Line) :
    itemsFrom row (line :: rest) = (item? row rest line).toList ++ itemsFrom (row + 1) rest := by
  cases line <;> rfl

theorem row_of_item? {row : Nat} {rest : List Line} {line : Line} {item : Item}
    (h : item? row rest line = some item) : item.row = row := by
  cases line <;> cases h <;> rfl

theorem row_of_mem_itemsFrom {row : Nat} {lines : List Line} {item : Item}
    (h : item ∈ itemsFrom row lines) : row ≤ item.row ∧ item.row < row + lines.length := by
  induction lines generalizing row with
  | nil => contradiction
  | cons line rest ih =>
    rw [itemsFrom_cons, List.mem_append, Option.mem_toList] at h
    rw [List.length_cons]
    rcases h with own | later
    · have := row_of_item? own
      omega
    · have := ih later
      omega

/-! ### Comments -/

theorem itemsFrom_comments (row : Nat) (texts : List (List Char)) (rest : List Line) :
    itemsFrom row (texts.map Line.comment ++ rest) = itemsFrom (row + texts.length) rest := by
  induction texts generalizing row with
  | nil => rfl
  | cons text texts ih =>
    rw [List.map_cons, List.cons_append, itemsFrom, ih, List.length_cons, Nat.add_assoc,
      Nat.add_comm 1]

/-- The numbers of the markers among lines that are numbered from `row` on. -/
def markerRowsFrom (row : Nat) (texts : List (List Char)) : List Nat :=
  ((texts.zipIdx row).filter fun line => isMarker line.1).map Prod.snd

/-- The numbers of the lines of a text that are markers, counted from one. -/
def markerRows (content : String) : List Nat :=
  markerRowsFrom 1 (Text.lines content.toList)

/-- The blocks among items. -/
def blocks : List Item → List Block
  | [] => []
  | .block block :: rest => block :: blocks rest
  | _ :: rest => blocks rest

theorem mem_of_mem_blocks {items : List Item} {block : Block} (h : block ∈ blocks items) :
    .block block ∈ items := by
  induction items with
  | nil => contradiction
  | cons item rest ih =>
    cases item with
    | block found =>
      rcases List.mem_cons.1 h with rfl | later
      · exact List.mem_cons_self
      · exact List.mem_cons_of_mem _ (ih later)
    | package _ _ => exact List.mem_cons_of_mem _ (ih h)
    | statement _ _ => exact List.mem_cons_of_mem _ (ih h)

theorem rows_blocks_itemsFrom (row : Nat) (texts : List (List Char)) :
    (blocks (itemsFrom row (texts.map Line.ofText))).map Block.row = markerRowsFrom row texts := by
  induction texts generalizing row with
  | nil => rfl
  | cons text rest ih =>
    have unfolded : markerRowsFrom row (text :: rest) =
        (if isMarker text then [row] else []) ++ markerRowsFrom (row + 1) rest := by
      cases h : isMarker text <;> simp [markerRowsFrom, List.zipIdx_cons, h]
    rw [unfolded, isMarker_eq, ← ih, List.map_cons, itemsFrom_cons]
    cases Line.ofText text <;> simp [item?, blocks, Line.isMarker]

/-! ### Packages -/

theorem isSegment_of_item? {row : Nat} {rest : List Line} {text : List Char} {found : Nat}
    {segments : List String}
    (h : item? row rest (Line.ofText text) = some (.package found segments)) :
    ∀ segment ∈ segments, IsSegment segment := by
  have reads := Line.reads_ofText text
  generalize Line.ofText text = line at reads h
  cases reads with
  | package =>
    cases h
    intro segment mem
    exact isSegment_of_mem_packageSegments mem
  | blank | marker | comment | statement => simp [item?] at h

theorem isSegment_of_mem_itemsFrom {row : Nat} {texts : List (List Char)} {found : Nat}
    {segments : List String} (h : .package found segments ∈ itemsFrom row (texts.map Line.ofText)) :
    ∀ segment ∈ segments, IsSegment segment := by
  induction texts generalizing row with
  | nil => contradiction
  | cons text rest ih =>
    rw [List.map_cons, itemsFrom_cons, List.mem_append, Option.mem_toList] at h
    rcases h with own | later
    · exact isSegment_of_item? own
    · exact ih later

end PolicyPages.Source
