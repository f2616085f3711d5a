import PolicyPages.Source.Module
import PolicyPages.Text.Pieces

/-!
# What a line is, from its text

`isMarker`, `isStatement` and `declaresPackage` say of the text of a line what extraction makes of
it, without the reading of the line: a marker is a comment whose one word is `METADATA`, a statement
is a line that is neither blank nor a comment, and the package is declared by the word `package`
with a space after it. The reading of lines agrees with them (`isMarker_eq`, `isStatement_eq`,
`declaresPackage_eq`).

The names that lines bring in are plain ones: `ruleName?_eq_some_iff` for rules,
`isSegment_of_mem_packageSegments` for packages.
-/

namespace PolicyPages.Source

open Text (dropStart? dropStart?_eq_some_iff trim trimStart)

/-! ### Kinds of lines -/

/-- A comment whose one word is that of the marker. -/
def isMarker (text : List Char) : Bool :=
  match trim text with
  | '#' :: rest => trim rest = markerWord
  | _ => false

/-- A line that is neither blank nor a comment. -/
def isStatement (text : List Char) : Bool :=
  match trim text with
  | [] | '#' :: _ => false
  | _ => true

/-- A line that begins with the word `package` and a space. -/
def declaresPackage (text : List Char) : Bool :=
  packageWord.isPrefixOf (trim text)

namespace Line

def isMarker : Line → Bool
  | marker => true
  | _ => false

def isStatement : Line → Bool
  | package _ | statement _ => true
  | _ => false

def declaresPackage : Line → Bool
  | package _ => true
  | _ => false

/-- The reading of a line, one case for each kind. -/
inductive Reads (text : List Char) : Line → Prop where
  | blank : trim text = [] → Reads text blank
  | marker {rest} : trim text = '#' :: rest → trim rest = markerWord → Reads text marker
  | comment {rest} : trim text = '#' :: rest → trim rest ≠ markerWord →
      Reads text (comment (commentText ((trimStart text).drop 1)))
  | package {declaration} : trim text = packageWord ++ declaration →
      Reads text (package (packageSegments declaration))
  | statement {c rest} : trim text = c :: rest → c ≠ '#' → ¬ packageWord <+: trim text →
      Reads text (statement (trim text))

theorem reads_ofText (text : List Char) : Reads text (ofText text) := by
  unfold ofText
  split
  · exact .blank ‹_›
  · rename_i rest h
    by_cases word : trim rest = markerWord
    · simpa [word] using Reads.marker h word
    · simpa [word] using Reads.comment h word
  · rename_i noComment
    split
    · rename_i declaration found
      exact .package (dropStart?_eq_some_iff.1 found)
    · rename_i found
      cases h : trim text with
      | nil => contradiction
      | cons c rest =>
        refine h ▸ .statement h (fun mark => noComment rest (mark ▸ h)) ?_
        rintro ⟨declaration, eq⟩
        rw [dropStart?_eq_some_iff.2 eq.symm] at found
        contradiction

/-- A line is read in one way only. -/
theorem Reads.ofText_eq {text : List Char} {line : Line} (h : Reads text line) :
    ofText text = line := by
  have reads := reads_ofText text
  generalize ofText text = other at reads ⊢
  cases h with
  | blank h => cases reads <;> simp_all [packageWord_eq]
  | marker h word => cases reads <;> simp_all [packageWord_eq]
  | comment h word => cases reads <;> simp_all [packageWord_eq]
  | package h =>
    cases reads with
    | package h' => rw [List.append_cancel_left (h.symm.trans h')]
    | statement _ _ noPackage => exact absurd (h ▸ List.prefix_append _ _) noPackage
    | _ => simp_all [packageWord_eq]
  | statement h mark noPackage =>
    cases reads with
    | package h' => exact absurd (h' ▸ List.prefix_append _ _) noPackage
    | statement => rfl
    | blank h' => simp [h] at h'
    | marker h' | comment h' => exact absurd (List.cons.inj (h'.symm.trans h)).1.symm mark

end Line

theorem isMarker_eq (text : List Char) : isMarker text = (Line.ofText text).isMarker := by
  have reads := Line.reads_ofText text
  generalize Line.ofText text = line at reads ⊢
  cases reads with
  | blank h => simp [isMarker, h, Line.isMarker]
  | marker h word => simp [isMarker, h, word, Line.isMarker]
  | comment h word => simp [isMarker, h, word, Line.isMarker]
  | package h => simp [isMarker, h, packageWord_eq, Line.isMarker]
  | statement h mark noPackage => simp [isMarker, h, mark, Line.isMarker]

theorem isStatement_eq (text : List Char) :
    isStatement text = (Line.ofText text).isStatement := by
  have reads := Line.reads_ofText text
  generalize Line.ofText text = line at reads ⊢
  cases reads with
  | blank h => simp [isStatement, h, Line.isStatement]
  | marker h word => simp [isStatement, h, Line.isStatement]
  | comment h word => simp [isStatement, h, Line.isStatement]
  | package h => simp [isStatement, h, packageWord_eq, Line.isStatement]
  | statement h mark noPackage => simp [isStatement, h, mark, Line.isStatement]

theorem declaresPackage_eq (text : List Char) :
    declaresPackage text = (Line.ofText text).declaresPackage := by
  have reads := Line.reads_ofText text
  generalize Line.ofText text = line at reads ⊢
  cases reads with
  | blank h => simp [declaresPackage, h, packageWord_eq, Line.declaresPackage]
  | marker h word =>
    simp [declaresPackage, h, packageWord_eq, List.isPrefixOf, Line.declaresPackage]
  | comment h word =>
    simp [declaresPackage, h, packageWord_eq, List.isPrefixOf, Line.declaresPackage]
  | package h =>
    rw [declaresPackage, Line.declaresPackage, List.isPrefixOf_iff_prefix, h]
    exact List.prefix_append _ _
  | statement h mark noPackage =>
    show packageWord.isPrefixOf (trim text) = false
    rw [Bool.eq_false_iff, Ne, List.isPrefixOf_iff_prefix]
    exact noPackage

/-! ### What a line declares -/

/-- The declaration that a line makes: that of the package, or that of the rule it names. -/
def declared? (text : List Char) : Option Declaration :=
  if declaresPackage text then some .package else (ruleName? (trim text)).map .rule

def Line.declaration? : Line → Option Declaration
  | package _ => some .package
  | statement text => (ruleName? text).map .rule
  | _ => none

@[simp] theorem ruleName?_nil : ruleName? [] = none := rfl

@[simp] theorem ruleName?_mark (rest : List Char) : ruleName? ('#' :: rest) = none := by
  have noWord : dropStart? defaultWord ('#' :: rest) = none := by
    simp [defaultWord_eq, dropStart?]
  have start : trimStart ('#' :: rest) = '#' :: rest :=
    Text.trimStart_cons_of_not_blank (by decide) rest
  simp [ruleName?, headWord, noWord, start, show isNameChar '#' = false from by decide]

theorem declared?_eq (text : List Char) : declared? text = (Line.ofText text).declaration? := by
  have declares := declaresPackage_eq text
  have reads := Line.reads_ofText text
  generalize Line.ofText text = line at reads declares ⊢
  unfold declared?
  cases reads with
  | blank h => simp [declares, h, Line.declaresPackage, Line.declaration?]
  | marker h word => simp [declares, h, Line.declaresPackage, Line.declaration?]
  | comment h word => simp [declares, h, Line.declaresPackage, Line.declaration?]
  | package h => simp [declares, Line.declaresPackage, Line.declaration?]
  | statement h mark noPackage => simp [declares, Line.declaresPackage, Line.declaration?]

/-! ### Names of rules -/

/-- The names that a rule may have: ASCII words that begin with no digit and are no keyword. -/
structure IsRuleName (name : String) : Prop where
  nonempty : name.toList ≠ []
  chars : ∀ c ∈ name.toList, isNameChar c = true
  first : ∀ c ∈ name.toList.head?, c.isDigit = false
  noKeyword : name ≠ "import" ∧ name ≠ "package"

instance (name : String) : Decidable (IsRuleName name) :=
  decidable_of_iff
    (name.toList ≠ [] ∧ name.toList.all isNameChar ∧ name.toList.head?.all (!·.isDigit) ∧
      name ≠ "import" ∧ name ≠ "package")
    ⟨fun ⟨nonempty, chars, first, noKeyword⟩ =>
        ⟨nonempty, by simpa using chars, by simpa [Option.all_eq_true] using first, noKeyword⟩,
      fun h => ⟨h.nonempty, by simpa using h.chars, by simpa [Option.all_eq_true] using h.first,
        h.noKeyword⟩⟩

theorem isNameChar_of_mem_headWord {text : List Char} {c : Char} (h : c ∈ headWord text) :
    isNameChar c = true :=
  List.all_eq_true.1 List.all_takeWhile c h

theorem ruleName?_eq_some_iff {text : List Char} {name : String} :
    ruleName? text = some name ↔ headWord text = name.toList ∧ IsRuleName name := by
  have chars := @isNameChar_of_mem_headWord text
  unfold ruleName?
  generalize headWord text = word at chars ⊢
  constructor
  · intro h
    cases word with
    | nil => simp at h
    | cons first rest =>
      simp only at h
      split at h
      · contradiction
      · rename_i allowed
        obtain rfl := Option.some.inj h
        simp only [Bool.or_eq_true, decide_eq_true_eq, not_or, Bool.not_eq_true] at allowed
        refine ⟨String.toList_ofList.symm, ?_, ?_, ?_, allowed.1.2, allowed.2⟩
        all_goals rw [String.toList_ofList]
        · simp
        · intro c mem
          exact chars mem
        · simpa using allowed.1.1
  · rintro ⟨rfl, isName⟩
    cases h : name.toList with
    | nil => exact absurd h isName.nonempty
    | cons first rest =>
      have noDigit := isName.first first (by simp [h])
      have whole : String.ofList (first :: rest) = name := by rw [← h, String.ofList_toList]
      simp [noDigit, whole, isName.noKeyword]

/-! ### Segments of packages -/

/-- The segments that the path of a package may have. -/
structure IsSegment (segment : String) : Prop where
  nonempty : segment ≠ ""
  noDot : '.' ∉ segment.toList
  noMark : '#' ∉ segment.toList

instance (segment : String) : Decidable (IsSegment segment) :=
  decidable_of_iff (segment ≠ "" ∧ '.' ∉ segment.toList ∧ '#' ∉ segment.toList)
    ⟨fun ⟨nonempty, noDot, noMark⟩ => ⟨nonempty, noDot, noMark⟩,
      fun h => ⟨h.nonempty, h.noDot, h.noMark⟩⟩

theorem isSegment_of_mem_packageSegments {declaration : List Char} {segment : String}
    (h : segment ∈ packageSegments declaration) : IsSegment segment := by
  simp only [packageSegments, List.mem_map, List.mem_filter] at h
  obtain ⟨_, ⟨⟨piece, mem, rfl⟩, nonempty⟩, rfl⟩ := h
  have inPiece : ∀ c ∈ trim piece, c ≠ '.' ∧ c ≠ '#' := by
    intro c inTrimmed
    have whole := (Text.trim_sublist piece).subset inTrimmed
    obtain ⟨noDot, inPath⟩ := Text.mem_of_mem_splitOn mem c whole
    have inFront := (Text.trim_sublist _).subset inPath
    have noMark := List.all_eq_true.1 List.all_takeWhile c inFront
    exact ⟨noDot, by simpa using noMark⟩
  constructor
  · intro empty
    simp_all
  · intro mem
    exact (inPiece _ (by simpa using mem)).1 rfl
  · intro mem
    exact (inPiece _ (by simpa using mem)).2 rfl

end PolicyPages.Source
