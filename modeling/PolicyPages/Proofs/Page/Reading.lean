import Mathlib.Data.List.TakeWhile
import PolicyPages.Proofs.Page.Lines
import PolicyPages.Text.Lines
import PolicyPages.Text.Pieces

/-!
# Reading pages

Links and identifiers are read off the text of a page, line by line. A navigation has entries, each a
link behind stars (`entryOf?`). An overview has marks, which are the identifiers of headings and of the
rows of its table (`marks`).

Where the parts of a line are plain, it is read as it was written: entries by `isEntry_page` and
`isEntry_id`, marks by `readsAs_heading` and `readsAs_row`. What lines are read as is put together from
what their parts are read as (`ReadsAs.append`, `ReadsAs.flatten`).
-/

namespace PolicyPages.AsciiDoc

open Text (all_ne_of_notMem dropWhile_ne_append takeWhile_ne_append)

/-! ### Plain texts -/

/-- The text ends no line, and neither a link nor an identifier begins or ends in it. -/
def IsPlain (text : String) : Prop :=
  ∀ c ∈ text.toList, c ∉ ['\n', '[', ']', '#']

instance (text : String) : Decidable (IsPlain text) :=
  decidable_of_iff (text.toList.all (fun c => decide (c ∉ ['\n', '[', ']', '#'])) = true)
    (by simp only [List.all_eq_true, decide_eq_true_eq, IsPlain])

section

variable {text : String}

@[simp] theorem isPlain_append {a b : String} : IsPlain (a ++ b) ↔ IsPlain a ∧ IsPlain b := by
  simp only [IsPlain, String.toList_append, List.forall_mem_append]

theorem IsPlain.notMem (h : IsPlain text) {c : Char} (special : c ∈ ['\n', '[', ']', '#']) :
    c ∉ text.toList :=
  fun mem => h c mem special

theorem IsPlain.rstrip (h : IsPlain text) : IsPlain (Text.rstrip text) := by
  intro c mem
  rw [Text.rstrip, String.toList_ofList, Text.trimEnd, List.mem_reverse] at mem
  exact h c (List.mem_reverse.1 ((List.dropWhile_sublist _).mem mem))

end

/-! ### Lines -/

/-- The lines of a page. The last one is what follows the last line feed. -/
def linesOf (text : String) : Lines :=
  (text.toList.splitOn '\n').map String.ofList

theorem linesOf_textOf {lines : Lines} (ended : ∀ line ∈ lines, '\n' ∉ line.toList) :
    linesOf (textOf lines) = lines ++ [""] := by
  have written : (textOf lines).toList = Text.unlines (lines.map String.toList) := by
    induction lines with
    | nil => rfl
    | cons line rest ih =>
      have ih := ih fun other mem => ended other (List.mem_cons_of_mem _ mem)
      simp only [textOf, List.map_cons, String.join_cons, String.toList_append] at ih ⊢
      rw [ih]
      rfl
  rw [linesOf, written, Text.splitOn_unlines (List.forall_mem_map.2 ended), List.map_append,
    List.map_map]
  simp [Function.comp_def]

/-! ### Entries of a navigation -/

/-- An entry: how deep it stands, and the page that it links, maybe with an identifier there. -/
structure Entry where
  depth : Nat
  page : String
  id : Option String
deriving DecidableEq, Repr

/-- The entry on a line. -/
def entryOf? (line : String) : Option Entry :=
  let stars := line.toList.takeWhile (· = '*')
  (Text.dropStart? " xref:".toList (line.toList.dropWhile (· = '*'))).map fun link =>
    let target := link.takeWhile (· ≠ '[')
    { depth := stars.length
      page := String.ofList (target.takeWhile (· ≠ '#'))
      id := (target.dropWhile (· ≠ '#')).tail?.map String.ofList }

/-- The entries of a navigation. -/
def entries (nav : String) : List Entry :=
  (linesOf nav).filterMap entryOf?

/-- The page of a package that an entry links. -/
def Entry.packagePage? (entry : Entry) : Option String :=
  if entry.depth = 3 ∧ entry.id = none then
    (Text.dropStart? "packages/".toList entry.page.toList).map String.ofList
  else none

/-- The identifier on a page that an entry of this depth links. -/
def Entry.idOn? (page : String) (depth : Nat) (entry : Entry) : Option String :=
  if entry.depth = depth ∧ entry.page = page then entry.id else none

/-- The pages of packages that a navigation links. -/
def linkedPages (nav : String) : List String :=
  (entries nav).filterMap Entry.packagePage?

/-- The identifiers on a page that a navigation links at a depth. -/
def linkedIds (page : String) (depth : Nat) (nav : String) : List String :=
  (entries nav).filterMap (Entry.idOn? page depth)

/-- The line is read as an entry. -/
structure IsEntry (line : String) (entry : Entry) : Prop where
  ended : '\n' ∉ line.toList
  entryOf?_eq : entryOf? line = some entry

section

variable {depth : Nat} {stars page id label : String}

/-- Stars and then a link. -/
theorem entryOf?_link {target : String} (starred : stars.toList = List.replicate depth '*' ++ [' '])
    (closed : '[' ∉ target.toList) : entryOf? (stars ++ link target label) = some
      { depth
        page := String.ofList (target.toList.takeWhile (· ≠ '#'))
        id := (target.toList.dropWhile (· ≠ '#')).tail?.map String.ofList } := by
  have line : (stars ++ link target label).toList = List.replicate depth '*' ++
      (" xref:".toList ++ (target.toList ++ '[' :: (label.toList ++ [']']))) := by
    simp [starred, link]
  have all : ∀ c ∈ List.replicate depth '*', decide (c = '*') = true := by simp
  have found : Text.dropStart? " xref:".toList
      ((stars ++ link target label).toList.dropWhile (· = '*')) =
        some (target.toList ++ '[' :: (label.toList ++ [']'])) := by
    rw [Text.dropStart?_eq_some_iff, line, List.dropWhile_append_of_pos all]
    simp
  have counted : ((stars ++ link target label).toList.takeWhile (· = '*')).length = depth := by
    rw [line, List.takeWhile_append_of_pos all]
    simp
  rw [entryOf?, found, counted, Option.map_some, takeWhile_ne_append closed]

theorem ended_link {target : String} (ended : '\n' ∉ target.toList) (endedLabel : '\n' ∉ label.toList) :
    '\n' ∉ (link target label).toList := by
  simp [link, ended, endedLabel]

/-- An entry that links a page. -/
theorem isEntry_page (starred : stars.toList = List.replicate depth '*' ++ [' '])
    (plain : IsPlain page) (plainLabel : IsPlain label) :
    IsEntry (stars ++ link page label) ⟨depth, page, none⟩ := by
  have ended : '\n' ∉ (link page label).toList :=
    ended_link (plain.notMem (by decide)) (plainLabel.notMem (by decide))
  refine ⟨by simp [starred, ended], ?_⟩
  have whole := all_ne_of_notMem (plain.notMem (c := '#') (by decide))
  rw [entryOf?_link starred (plain.notMem (by decide)), List.takeWhile_eq_self_iff.2 whole,
    List.dropWhile_eq_nil_iff.2 whole, String.ofList_toList]
  rfl

/-- An entry that links an identifier on a page. -/
theorem isEntry_id (starred : stars.toList = List.replicate depth '*' ++ [' '])
    (plain : IsPlain page) (plainId : IsPlain id) (plainLabel : IsPlain label) :
    IsEntry (stars ++ link (page ++ "#" ++ id) label) ⟨depth, page, some id⟩ := by
  have target : (page ++ "#" ++ id).toList = page.toList ++ '#' :: id.toList := by simp
  have ended : '\n' ∉ (link (page ++ "#" ++ id) label).toList :=
    ended_link (by simp [plain.notMem, plainId.notMem]) (plainLabel.notMem (by decide))
  have closed : '[' ∉ (page ++ "#" ++ id).toList := by simp [plain.notMem, plainId.notMem]
  have unmarked : '#' ∉ page.toList := plain.notMem (by decide)
  refine ⟨by simp [starred, ended], ?_⟩
  rw [entryOf?_link starred closed, target, takeWhile_ne_append unmarked,
    dropWhile_ne_append unmarked, String.ofList_toList, List.tail?_cons, Option.map_some,
    String.ofList_toList]

/-- The entries of a page are those that its lines are read as. -/
theorem entries_textOf {lines : Lines} {found : List Entry}
    (each : List.Forall₂ IsEntry lines found) : entries (textOf lines) = found := by
  have ended : ∀ line ∈ lines, '\n' ∉ line.toList := fun line mem =>
    (exists_mem_of_forall₂ each mem).elim fun _ h => h.2.ended
  have read : lines.filterMap entryOf? = found := by
    induction each with
    | nil => rfl
    | cons first _ ih =>
      rw [List.filterMap_cons, first.entryOf?_eq, ih fun line mem => ended line (.tail _ mem)]
  rw [entries, linesOf_textOf ended, List.filterMap_append, read]
  exact List.append_nil found

end

/-! ### Marks of an overview -/

/-- What an identifier stands on. -/
inductive Spot where
  /-- A heading, by the number of its signs; nothing else has any. -/
  | heading (level : Nat)
  /-- A row that links the page of a package. -/
  | row (page : String)
deriving DecidableEq, Repr

/-- An identifier and what it stands on. -/
structure Mark where
  id : String
  spot : Spot
deriving DecidableEq, Repr

/-- The number of signs that make a line a heading. -/
def level (line : String) : Nat :=
  (line.toList.takeWhile (· = '=')).length

/-- The mark of a line with an identifier only, which stands on what follows. -/
def headingMark? (line next : String) : Option Mark :=
  (Text.dropStart? "[#".toList line.toList).map fun rest =>
    ⟨String.ofList (rest.takeWhile (· ≠ ']')), .heading (level next)⟩

/-- The mark of a row. -/
def rowMark? (line : String) : Option Mark := do
  let cell ← Text.dropStart? "| [#".toList line.toList
  let link ← Text.dropStart? "]xref:packages/".toList (cell.dropWhile (· ≠ ']'))
  return ⟨String.ofList (cell.takeWhile (· ≠ ']')), .row (String.ofList (link.takeWhile (· ≠ '[')))⟩

/-- The marks of lines. -/
def marks : Lines → List Mark
  | [] => []
  | line :: rest => ((headingMark? line (rest.headD "")).or (rowMark? line)).toList ++ marks rest

/-- The identifier of a heading of this level. -/
def Mark.headingId? (level : Nat) (mark : Mark) : Option String :=
  if mark.spot = .heading level then some mark.id else none

/-- The page of a package that a row links. -/
def Mark.page? (mark : Mark) : Option String :=
  match mark.spot with
  | .row page => some page
  | .heading _ => none

/-- The identifiers of the headings of a level. -/
def headingIds (level : Nat) (overview : String) : List String :=
  (marks (linesOf overview)).filterMap (Mark.headingId? level)

/-- The pages of packages in the rows of the table. -/
def listedPages (overview : String) : List String :=
  (marks (linesOf overview)).filterMap Mark.page?

/-- All identifiers that are placed on an overview. -/
def placedIds (overview : String) : List String :=
  (marks (linesOf overview)).map Mark.id

/-- The line has no mark. -/
structure IsUnmarked (line : String) : Prop where
  ended : '\n' ∉ line.toList
  noHeading : Text.dropStart? "[#".toList line.toList = none
  noRow : Text.dropStart? "| [#".toList line.toList = none

instance (line : String) : Decidable (IsUnmarked line) :=
  decidable_of_iff ('\n' ∉ line.toList ∧ Text.dropStart? "[#".toList line.toList = none ∧
      Text.dropStart? "| [#".toList line.toList = none)
    ⟨fun ⟨ended, noHeading, noRow⟩ => ⟨ended, noHeading, noRow⟩,
      fun h => ⟨h.ended, h.noHeading, h.noRow⟩⟩

/-- Whatever follows them, the lines are read as these marks. -/
structure ReadsAs (lines : Lines) (found : List Mark) : Prop where
  ended : ∀ line ∈ lines, '\n' ∉ line.toList
  marks : ∀ rest, marks (lines ++ rest) = found ++ marks rest

section

variable {line heading : String} {first second others : Lines} {xs ys : List Mark} {id page : String}

theorem isUnmarked_of_plain (plain : IsPlain line) : IsUnmarked line := by
  have none {start : List Char} (bracket : '[' ∈ start) :
      Text.dropStart? start line.toList = none := by
    rw [Option.eq_none_iff_forall_ne_some]
    intro rest found
    rw [Text.dropStart?_eq_some_iff] at found
    exact plain.notMem (c := '[') (by decide) (found ▸ List.mem_append_left rest bracket)
  exact ⟨plain.notMem (by decide), none (by decide), none (by decide)⟩

/-- An item of a list has no mark. -/
theorem isUnmarked_item (ended : '\n' ∉ line.toList) : IsUnmarked ("* " ++ line) :=
  ⟨by simpa using ended, by simp [Text.dropStart?], by simp [Text.dropStart?]⟩

theorem readsAs_nil : ReadsAs [] [] := ⟨by simp, fun _ => rfl⟩

theorem ReadsAs.append (h : ReadsAs first xs) (h' : ReadsAs second ys) :
    ReadsAs (first ++ second) (xs ++ ys) := by
  refine ⟨List.forall_mem_append.2 ⟨h.ended, h'.ended⟩, fun rest => ?_⟩
  rw [List.append_assoc, h.marks, h'.marks, List.append_assoc]

theorem IsUnmarked.readsAs (h : IsUnmarked line) : ReadsAs [line] [] := by
  refine ⟨by simpa using h.ended, fun rest => ?_⟩
  rw [List.singleton_append, AsciiDoc.marks, headingMark?, h.noHeading, rowMark?, h.noRow]
  rfl

theorem readsAs_of_unmarked (unmarked : ∀ line ∈ others, IsUnmarked line) : ReadsAs others [] := by
  induction others with
  | nil => exact readsAs_nil
  | cons line rest ih =>
    obtain ⟨first, later⟩ := List.forall_mem_cons.1 unmarked
    exact first.readsAs.append (ih later)

/-- Parts that are read as one mark each. -/
theorem ReadsAs.flatten {found : List Mark} {blocks : List Lines}
    (each : List.Forall₂ (fun mark block => ReadsAs block [mark]) found blocks) :
    ReadsAs blocks.flatten found := by
  induction each with
  | nil => exact readsAs_nil
  | cons first _ ih => exact first.append ih

/-- A heading below an identifier. -/
theorem readsAs_heading {signs : Nat} (plain : IsPlain id) (unmarked : IsUnmarked heading)
    (leveled : level heading = signs) : ReadsAs [blockId id, heading] [⟨id, .heading signs⟩] := by
  subst leveled
  have unmarkedId : ']' ∉ id.toList := plain.notMem (by decide)
  have line : (blockId id).toList = "[#".toList ++ (id.toList ++ ']' :: []) := by simp [blockId]
  have found : headingMark? (blockId id) heading = some ⟨id, .heading (level heading)⟩ := by
    rw [headingMark?, Text.dropStart?_eq_some_iff.2 line, Option.map_some,
      takeWhile_ne_append unmarkedId, String.ofList_toList]
  have ended : '\n' ∉ (blockId id).toList := by
    rw [line]
    simp [plain.notMem]
  refine ⟨by simp [ended, unmarked.ended], fun rest => ?_⟩
  have later : AsciiDoc.marks (heading :: rest) = AsciiDoc.marks rest := unmarked.readsAs.marks rest
  show AsciiDoc.marks (blockId id :: heading :: rest) = _
  rw [AsciiDoc.marks, List.headD_cons, found, later]
  rfl

/-- The first line of a row. -/
theorem readsAs_row {label : String} (plain : IsPlain id) (plainPage : IsPlain page)
    (plainLabel : IsPlain label) :
    ReadsAs ["| " ++ blockId id ++ link ("packages/" ++ page) label] [⟨id, .row page⟩] := by
  have unmarkedId : ']' ∉ id.toList := plain.notMem (by decide)
  have unmarkedPage : '[' ∉ page.toList := plainPage.notMem (by decide)
  have line : ("| " ++ blockId id ++ link ("packages/" ++ page) label).toList = "| [#".toList ++
      (id.toList ++ ']' :: ("xref:packages/".toList ++ (page.toList ++
        '[' :: (label.toList ++ [']'])))) := by
    simp [blockId, link]
  have noHeading : Text.dropStart? "[#".toList
      ("| " ++ blockId id ++ link ("packages/" ++ page) label).toList = none := by
    simp [Text.dropStart?]
  have linked : Text.dropStart? "]xref:packages/".toList
      (']' :: ("xref:packages/".toList ++ (page.toList ++ '[' :: (label.toList ++ [']'])))) =
        some (page.toList ++ '[' :: (label.toList ++ [']'])) :=
    Text.dropStart?_eq_some_iff.2 (by simp)
  have found : rowMark? ("| " ++ blockId id ++ link ("packages/" ++ page) label) =
      some ⟨id, .row page⟩ := by
    rw [rowMark?, Text.dropStart?_eq_some_iff.2 line, Option.bind_eq_bind, Option.bind_some,
      takeWhile_ne_append unmarkedId, dropWhile_ne_append unmarkedId, linked]
    simp only [Option.bind_some, takeWhile_ne_append unmarkedPage,
      String.ofList_toList]
    rfl
  have ended : '\n' ∉ ("| " ++ blockId id ++ link ("packages/" ++ page) label).toList := by
    rw [line]
    simp [plain.notMem, plainPage.notMem, plainLabel.notMem]
  refine ⟨by simpa using ended, fun rest => ?_⟩
  rw [List.singleton_append, AsciiDoc.marks, headingMark?, noHeading, found]
  rfl

/-- The marks of a page are those that its lines are read as. -/
theorem ReadsAs.marks_linesOf (h : ReadsAs first xs) : AsciiDoc.marks (linesOf (textOf first)) = xs := by
  rw [linesOf_textOf h.ended, h.marks]
  exact List.append_nil xs

end

end PolicyPages.AsciiDoc
