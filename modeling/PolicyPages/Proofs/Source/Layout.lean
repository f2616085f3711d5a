import PolicyPages.Proofs.Source.Items
import PolicyPages.Proofs.Text.Editing

/-!
# The layout of a module

Neither carriage returns at line ends nor indentation change what the lines of a module are
(`linesOf_withReturns`, `linesOf_indents`). A blank line that is put in changes the numbers of the lines
behind it; where it does not part a block from a comment of its body, it changes nothing else
(`itemsFrom_put`).

Extraction never looks at a number. It hands the numbers of blocks and statements on to annotations and
errors, so renumbering the items of a module renumbers the outcome (`annotateItems_moved`).
`annotationsWith_layout` puts this together.
-/

namespace PolicyPages

/-- The annotation with its line renumbered. -/
def Annotation.moved (number : Nat → Nat) (note : Annotation) : Annotation :=
  { note with location := { note.location with row := number note.location.row } }

namespace Source

open Text (IsBlankLine Indents IsIndentation PutsBlank dropReturn lines_append_feed lines_of_last
  trim trimStart withReturns)

/-! ### Ends of lines and indentation -/

theorem Line.ofText_append_of_blank {blanks : List Char}
    (h : ∀ c ∈ blanks, Text.isBlank c = true) (text : List Char) :
    ofText (blanks ++ text) = ofText text := by
  have start := Text.trimStart_append_of_blank text h
  unfold ofText trim
  rw [start]

theorem linesOf_withReturns {text : List Char} (free : '\r' ∉ text) :
    linesOf (withReturns text) = linesOf text :=
  congrArg (List.map Line.ofText) (Text.lines_withReturns text free)

theorem linesOf_indents {text indented : List Char} (h : Indents text indented) :
    linesOf indented = linesOf text := by
  unfold linesOf
  induction h with
  | empty => rfl
  | @last blanks line isBlank unended nonempty =>
    have unended' : '\n' ∉ blanks ++ line := by
      simp [isBlank.notMem, unended]
    rw [lines_of_last unended nonempty, lines_of_last unended' (by simp [nonempty])]
    simp only [List.map_singleton, Line.ofText_append_of_blank isBlank.isBlank]
  | @ended blanks line text indented isBlank unended _ ih =>
    have unended' : '\n' ∉ blanks ++ line := by
      simp [isBlank.notMem, unended]
    rw [lines_append_feed unended, lines_append_feed unended', Text.dropReturn_append isBlank]
    simp only [List.map_cons, ih, Line.ofText_append_of_blank isBlank.isBlank]

/-! ### Renumbering -/

variable {α β : Type} {number : Nat → Nat}

def Block.moved (number : Nat → Nat) (block : Block) : Block :=
  { block with row := number block.row }

def Item.moved (number : Nat → Nat) : Item → Item
  | .block found => .block (found.moved number)
  | .package row segments => .package (number row) segments
  | .statement row text => .statement (number row) text

def ParseError.moved (number : Nat → Nat) (error : ParseError) : ParseError :=
  { error with line := number error.line }

/-- An outcome with its lines renumbered: that of an error, or those that `move` finds in a value. -/
def moved (number : Nat → Nat) (move : α → α) : Except ParseError α → Except ParseError α
  | .ok value => .ok (move value)
  | .error error => .error (error.moved number)

/-- The annotation of a block and those after it are renumbered each for itself. -/
theorem moved_cons (first : Except ParseError Annotation)
    (others : Except ParseError (List Annotation)) :
    (do
      let note ← moved number (·.moved number) first
      let notes ← moved number (List.map (·.moved number)) others
      return note :: notes) =
    moved number (List.map (·.moved number)) (do
      let note ← first
      let notes ← others
      return note :: notes) := by
  cases first with
  | error error => rfl
  | ok note => cases others <;> rfl

section

variable {decode : Decoder} {path : Path}

theorem annotate_moved (package : Option (List String)) (block : Block)
    (declaration : Declaration) :
    annotate decode path package (block.moved number) declaration =
      moved number (·.moved number) (annotate decode path package block declaration) := by
  unfold annotate
  have sameBody : (block.moved number).body = block.body := rfl
  rw [sameBody]
  cases decode block.body with
  | error fault => rfl
  | ok metadata =>
    cases checked : checkScope declaration metadata.scope with
    | error fault =>
      simp only [checked]
      rfl
    | ok scope =>
      simp only [checked]
      cases package <;> rfl

theorem annotateItems_moved (package : Option (List String)) (pending : Option Block)
    (items : List Item) :
    annotateItems decode path package (pending.map (Block.moved number))
        (items.map (Item.moved number)) =
      moved number (List.map (·.moved number))
        (annotateItems decode path package pending items) := by
  fun_induction annotateItems decode path package pending items with
  | case1 => rfl
  | case2 => rfl
  | case3 => rfl
  | case4 package block rest ih => exact ih
  | case5 pending => cases pending <;> rfl
  | case6 row segments rest ih => exact ih
  | case7 block row segments rest ih =>
    rw [← moved_cons, ← annotate_moved, ← ih]
    rfl
  | case8 package row text rest ih => exact ih
  | case9 package block row text rest unnamed =>
    simp only [Option.map_some, List.map_cons, Item.moved, annotateItems, unnamed]
    rfl
  | case10 package block row text rest name named ih =>
    rw [← moved_cons, ← annotate_moved, ← ih]
    simp only [Option.map_some, List.map_cons, Item.moved, annotateItems, named]
    rfl

theorem checkGroupingFrom_moved (hasPackage : Bool) (notes : List Annotation) :
    checkGroupingFrom path hasPackage (notes.map (·.moved number)) =
      moved number id (checkGroupingFrom path hasPackage notes) := by
  induction notes generalizing hasPackage with
  | nil => rfl
  | cons note rest ih =>
    have sameScope : (note.moved number).scope = note.scope := rfl
    simp only [List.map_cons, checkGroupingFrom, sameScope]
    cases note.scope <;> cases hasPackage
    · exact ih true
    · rfl
    · rfl
    · exact ih true

/-- Whatever renumbers what is found in the items of a text renumbers the outcome. -/
theorem annotationsWith_moved {content other : String}
    (found : annotateItems decode path none none (items other.toList) =
      moved number (List.map (·.moved number))
        (annotateItems decode path none none (items content.toList))) :
    annotationsWith decode path other =
      moved number (List.map (·.moved number)) (annotationsWith decode path content) := by
  unfold annotationsWith
  rw [found]
  cases annotateItems decode path none none (items content.toList) with
  | error error => rfl
  | ok notes =>
    show checkGrouping path (notes.map (·.moved number)) >>= _ =
      moved number _ (checkGrouping path notes >>= _)
    rw [checkGrouping, checkGrouping, checkGroupingFrom_moved]
    cases checkGroupingFrom path false notes <;> rfl

end

/-! ### A blank line between others -/

/-- The numbers of the comments in the bodies of blocks, among lines that are numbered from `row` on.
`inBlock` tells whether the lines before them end in a block. -/
def bodyRows : (row : Nat) → (inBlock : Bool) → List Line → List Nat
  | _, _, [] => []
  | row, _, .marker :: rest => bodyRows (row + 1) true rest
  | row, true, .comment _ :: rest => row :: bodyRows (row + 1) true rest
  | row, _, _ :: rest => bodyRows (row + 1) false rest

/-- The number of a line after a line is put in as line `put`. -/
def rowAfter (put row : Nat) : Nat :=
  if row < put then row else row + 1

/-- The body of a block stays when a blank line is put behind it, or further down. -/
theorem bodyText_put {front back : List Line} {row : Nat}
    (apart : row + front.length ∉ bodyRows row true (front ++ back)) :
    bodyText (front ++ .blank :: back) = bodyText (front ++ back) := by
  induction front generalizing row with
  | nil =>
    cases back with
    | nil => rfl
    | cons line rest =>
      cases line with
      | comment text => exact absurd List.mem_cons_self apart
      | _ => rfl
  | cons line rest ih =>
    cases line with
    | comment text =>
      have later : row + 1 + rest.length ∉ bodyRows (row + 1) true (rest ++ back) := by
        intro mem
        rw [List.length_cons, Nat.add_comm rest.length, ← Nat.add_assoc] at apart
        exact apart (List.mem_cons_of_mem _ mem)
      simp only [List.cons_append, bodyText, ih later]
    | _ => rfl

theorem itemsFrom_succ {put : Nat} (lines : List Line) :
    ∀ row, put ≤ row → itemsFrom (row + 1) lines =
      (itemsFrom row lines).map (Item.moved (rowAfter put)) := by
  induction lines with
  | nil => intro _ _; rfl
  | cons line rest ih =>
    intro row behind
    have here : rowAfter put row = row + 1 := if_neg (Nat.not_lt.2 behind)
    have later := ih (row + 1) (Nat.le_succ_of_le behind)
    cases line <;> simp [itemsFrom, later, Item.moved, Block.moved, here]

/-- A blank line that is put in moves what is behind it, if it parts no block from its body. -/
theorem itemsFrom_put {front back : List Line} {row : Nat} {inBlock : Bool}
    (apart : row + front.length ∉ bodyRows row inBlock (front ++ back)) :
    itemsFrom row (front ++ .blank :: back) =
      (itemsFrom row (front ++ back)).map (Item.moved (rowAfter (row + front.length))) := by
  induction front generalizing row inBlock with
  | nil => exact itemsFrom_succ back row (Nat.le_refl row)
  | cons line rest ih =>
    have length : row + (line :: rest).length = row + 1 + rest.length := by
      rw [List.length_cons]
      omega
    have here : rowAfter (row + 1 + rest.length) row = row := if_pos (by omega)
    rw [length] at apart ⊢
    rw [List.cons_append, List.cons_append]
    cases line with
    | marker =>
      simp only [itemsFrom, List.map_cons, Item.moved, Block.moved, here, bodyText_put apart,
        ih apart]
    | comment text =>
      cases inBlock with
      | true => exact ih fun mem => apart (List.mem_cons_of_mem _ mem)
      | false => exact ih apart
    | blank => exact ih (by cases inBlock <;> exact apart)
    | package segments =>
      have apart : row + 1 + rest.length ∉ bodyRows (row + 1) false (rest ++ back) := by
        cases inBlock <;> exact apart
      simp only [itemsFrom, List.map_cons, Item.moved, here, ih apart]
    | statement text =>
      have apart : row + 1 + rest.length ∉ bodyRows (row + 1) false (rest ++ back) := by
        cases inBlock <;> exact apart
      simp only [itemsFrom, List.map_cons, Item.moved, here, ih apart]

/-! ### A blank line at the end -/

theorem bodyText_concat_comment (lines : List Line) (text text' : List Char) :
    bodyText (lines ++ [.comment text]) = bodyText (lines ++ [.comment text']) ∨
      ∃ texts : List (List Char), lines = texts.map Line.comment := by
  induction lines with
  | nil => exact .inr ⟨[], rfl⟩
  | cons line rest ih =>
    cases line with
    | comment first =>
      rcases ih with same | ⟨texts, rfl⟩
      · exact .inl (by simp only [List.cons_append, bodyText, same])
      · exact .inr ⟨first :: texts, rfl⟩
    | _ => exact .inl rfl

theorem itemsFrom_concat_comment (row : Nat) (texts : List (List Char)) (text : List Char) :
    itemsFrom row (texts.map Line.comment ++ [.comment text]) = [] :=
  itemsFrom_comments row texts [.comment text]

variable {decode : Decoder} {path : Path}

/-- No statement follows a block that reaches to the end, so the text of its last comment is never
read. -/
theorem annotateItems_concat_comment (lines : List Line) (text text' : List Char) (row : Nat)
    (package : Option (List String)) (pending : Option Block) :
    annotateItems decode path package pending (itemsFrom row (lines ++ [.comment text])) =
      annotateItems decode path package pending (itemsFrom row (lines ++ [.comment text'])) := by
  induction lines generalizing row package pending with
  | nil => rfl
  | cons line rest ih =>
    cases line with
    | blank => exact ih (row + 1) package pending
    | comment first => exact ih (row + 1) package pending
    | marker =>
      cases pending with
      | some block => rfl
      | none =>
        simp only [List.cons_append, itemsFrom, annotateItems]
        rcases bodyText_concat_comment rest text text' with same | ⟨texts, rfl⟩
        · rw [same]
          exact ih (row + 1) package _
        · rw [itemsFrom_concat_comment, itemsFrom_concat_comment]
          rfl
    | package segments =>
      simp only [List.cons_append, itemsFrom]
      cases package with
      | some declared => cases pending <;> rfl
      | none => cases pending <;> simp only [annotateItems, ih (row + 1) (some segments) none]
    | statement statement =>
      simp only [List.cons_append, itemsFrom]
      cases pending <;> simp only [annotateItems, ih (row + 1) package none]

/-- A carriage return at the end of a line counts in a comment only. -/
theorem Line.ofText_concat_return (text : List Char) :
    ofText (text ++ ['\r']) = ofText text ∨
      ∃ first second, ofText (text ++ ['\r']) = .comment first ∧ ofText text = .comment second := by
  have trimmed : trim (text ++ ['\r']) = trim text :=
    Text.trim_append_of_blank text (List.forall_mem_singleton.2 (by decide))
  have reads := reads_ofText text
  generalize ofText text = line at reads ⊢
  cases reads with
  | blank h => exact .inl (Reads.blank (trimmed.trans h)).ofText_eq
  | marker h word => exact .inl (Reads.marker (trimmed.trans h) word).ofText_eq
  | comment h word => exact .inr ⟨_, _, (Reads.comment (trimmed.trans h) word).ofText_eq, rfl⟩
  | package h => exact .inl (Reads.package (trimmed.trans h)).ofText_eq
  | statement h mark noPackage =>
    rw [← trimmed] at h noPackage ⊢
    exact .inl (Reads.statement h mark noPackage).ofText_eq

/-- The last line of a text may keep a carriage return. -/
theorem annotateItems_dropReturn (init : List Line) (last : List Char) :
    annotateItems decode path none none (itemsFrom 1 (init ++ [.ofText (dropReturn last)])) =
      annotateItems decode path none none (itemsFrom 1 (init ++ [.ofText last])) := by
  by_cases ends : last.getLast? = some '\r'
  · obtain ⟨text, rfl⟩ := List.getLast?_eq_some_iff.1 ends
    rw [Text.dropReturn_concat]
    rcases Line.ofText_concat_return text with same | ⟨first, second, read, read'⟩
    · rw [same]
    · rw [read, read']
      exact annotateItems_concat_comment init second first 1 none none
  · rw [Text.dropReturn_eq_self ends]

theorem lt_of_mem_bodyRows {lines : List Line} {number row : Nat} {inBlock : Bool}
    (mem : number ∈ bodyRows row inBlock lines) : number < row + lines.length := by
  induction lines generalizing row inBlock with
  | nil => contradiction
  | cons line rest ih =>
    have later {inBlock : Bool} (mem : number ∈ bodyRows (row + 1) inBlock rest) :
        number < row + (rest.length + 1) := by
      have := ih mem
      omega
    rw [List.length_cons]
    cases line with
    | comment text =>
      cases inBlock with
      | true =>
        rcases List.mem_cons.1 mem with rfl | mem
        · omega
        · exact later mem
      | false => exact later mem
    | _ => cases inBlock <;> exact later mem

/-! ### Texts -/

theorem annotateItems_insert {front back : List Line}
    (apart : 1 + front.length ∉ bodyRows 1 false (front ++ back)) :
    annotateItems decode path none none (itemsFrom 1 (front ++ .blank :: back)) =
      moved (rowAfter (1 + front.length)) (List.map (·.moved (rowAfter (1 + front.length))))
        (annotateItems decode path none none (itemsFrom 1 (front ++ back))) := by
  rw [itemsFrom_put apart]
  exact annotateItems_moved none none _

theorem annotateItems_concat_blank (decode : Decoder) (path : Path) (lines : List Line) :
    annotateItems decode path none none (itemsFrom 1 (lines ++ [.blank])) =
      moved (rowAfter (1 + lines.length)) (List.map (·.moved (rowAfter (1 + lines.length))))
        (annotateItems decode path none none (itemsFrom 1 lines)) := by
  have apart : 1 + lines.length ∉ bodyRows 1 false (lines ++ []) := by
    rw [List.append_nil]
    exact fun mem => Nat.lt_irrefl _ (lt_of_mem_bodyRows mem)
  rw [annotateItems_insert apart, List.append_nil]

theorem annotateItems_put {row : Nat} {text longer : List Char} (put : PutsBlank row text longer)
    (apart : row ∉ bodyRows 1 false (linesOf text)) :
    annotateItems decode path none none (items longer) =
      moved (rowAfter row) (List.map (·.moved (rowAfter row)))
        (annotateItems decode path none none (items text)) := by
  obtain ⟨front, back, blank, cut, rfl, isBlank, whole⟩ := put.exists_lines
  have readBlank : Line.ofText blank = .blank :=
    (Line.Reads.blank (Text.trim_eq_nil_iff.2 (Text.trimStart_eq_nil_iff.2 isBlank))).ofText_eq
  have number (lines : List (List Char)) : lines.length + 1 = 1 + (lines.map Line.ofText).length := by
    rw [List.length_map, Nat.add_comm]
  unfold items
  unfold linesOf at apart ⊢
  rw [cut, List.map_append] at apart ⊢
  rcases whole with whole | ⟨init, last, rfl, rfl, whole⟩
  · rw [number] at apart ⊢
    rw [whole, List.map_append, List.map_cons, readBlank]
    exact annotateItems_insert apart
  · have put := annotateItems_concat_blank decode path
      (init.map Line.ofText ++ [Line.ofText (dropReturn last)])
    rw [annotateItems_dropReturn, List.append_assoc] at put
    rw [whole, number]
    simp only [List.map_append, List.map_cons, List.map_nil, List.length_append, List.length_cons,
      List.length_nil, List.append_nil, readBlank] at put ⊢
    exact put

/-- The layout of a module does not count. Carriage returns before line feeds and indentation change
nothing. A blank line that is put in, anywhere but before a comment in the body of a block, moves the
lines behind it and changes nothing else, in the annotations or in the error. -/
theorem annotationsWith_layout (decode : Decoder) (path : Path) (content : String) :
    ('\r' ∉ content.toList →
      annotationsWith decode path (String.ofList (withReturns content.toList)) =
        annotationsWith decode path content) ∧
    (∀ indented : String, Indents content.toList indented.toList →
      annotationsWith decode path indented = annotationsWith decode path content) ∧
    ∀ row, ∀ longer : String, PutsBlank row content.toList longer.toList →
      row ∉ bodyRows 1 false (linesOf content.toList) →
      annotationsWith decode path longer =
        moved (rowAfter row) (List.map (·.moved (rowAfter row)))
          (annotationsWith decode path content) := by
  refine ⟨fun free => ?_, fun indented indents => ?_, fun row longer put apart => ?_⟩
  · unfold annotationsWith items
    rw [String.toList_ofList, linesOf_withReturns free]
  · unfold annotationsWith items
    rw [linesOf_indents indents]
  · exact annotationsWith_moved (annotateItems_put put apart)

/-- A block and the declaration of a package. -/
def plainText : List Char :=
  "# METADATA".toList ++ '\n' :: ("# title: A".toList ++ '\n' :: ("package a".toList ++ '\n' :: []))

def indentedText : List Char :=
  ['\t'] ++ "# METADATA".toList ++ '\n' ::
    ([' ', ' '] ++ "# title: A".toList ++ '\n' :: ([] ++ "package a".toList ++ '\n' :: []))

def longerText : List Char :=
  "# METADATA".toList ++ '\n' ::
    ("# title: A".toList ++ '\n' :: ([' '] ++ '\n' :: ("package a".toList ++ '\n' :: [])))

/-- A blank line may stand behind the body of a block. -/
theorem annotationsWith_layout_sample :
    let read (text : List Char) := annotations (Path.ofText "a.rego") (String.ofList text)
    '\r' ∉ plainText ∧ read (withReturns plainText) = read plainText ∧
      Indents plainText indentedText ∧ read indentedText = read plainText ∧
      PutsBlank 3 plainText longerText ∧ 2 ∈ bodyRows 1 false (linesOf plainText) ∧
      3 ∉ bodyRows 1 false (linesOf plainText) ∧
      read longerText =
        moved (rowAfter 3) (List.map (·.moved (rowAfter 3))) (read plainText) := by
  intro read
  have free : '\r' ∉ plainText := by decide +kernel
  have indents : Indents plainText indentedText :=
    .ended (by decide) (by decide) (.ended (by decide) (by decide)
      (.ended (by decide) (by decide) .empty))
  have put : PutsBlank 3 plainText longerText :=
    .later (by decide) (.later (by decide) (.here (by decide)))
  have apart : 3 ∉ bodyRows 1 false (linesOf plainText) := by decide +kernel
  obtain ⟨returns, indentation, blank⟩ :=
    annotationsWith_layout Metadata.ofText (Path.ofText "a.rego") (String.ofList plainText)
  rw [String.toList_ofList] at returns indentation blank
  refine ⟨free, returns free, indents, ?_, put, by decide +kernel, apart, ?_⟩
  · exact indentation _ (by rwa [String.toList_ofList])
  · exact blank 3 _ (by rwa [String.toList_ofList]) apart

end Source

end PolicyPages
