import PolicyPages.Proofs.Source.Acceptance
import PolicyPages.Proofs.Source.Fields

/-!
# The grammar of annotated modules

The texts that extraction accepts, said of their lines and of the YAML values of the bodies of their
blocks. A reader of YAML is given; `attachments` lists the blocks of a text, each with the statement
after it, and `Grammar` puts four conditions on them:

* a statement follows each block before the next one, and it declares the package or a rule;
* no more than one line declares the package;
* the statement after the first block does;
* each body is null or a mapping of the right type, with no scope or that of its statement.

`annotations_ok_iff_grammar` is that extraction accepts just these texts, and that any other text
has a fault on one of its lines. For the right type it does not do that the fields that are read
have values of the right kinds: a mapping with a key that is no text is refused, whatever the key,
and so is one in which a field stands twice (`not_ok_iff_grammar_fieldsTyped`).
-/

namespace PolicyPages.Source

/-- The first statement among lines, if it stands before any marker. -/
def nextStatement? : List (List Char) → Option (List Char)
  | [] => none
  | text :: rest =>
    if isMarker text then none
    else if isStatement text then some text
    else nextStatement? rest

/-- A block of a text: its body and the statement after it. -/
structure Attachment where
  body : List Char
  statement? : Option (List Char)
deriving DecidableEq

/-- The blocks of a text in order. -/
def attachments : List (List Char) → List Attachment
  | [] => []
  | text :: rest =>
    if isMarker text then ⟨bodyText (rest.map Line.ofText), nextStatement? rest⟩ :: attachments rest
    else attachments rest

/-- A body can be read for a declaration: it is null, or a mapping that is typed as asked and whose
scope, if it has one, is that of the declaration. -/
def Readable (typed : List (Yaml.Value × Yaml.Value) → Prop) (read : YamlReader)
    (declaration : Declaration) (body : List Char) : Prop :=
  read body = some .null ∨
    ∃ entries, read body = some (.mapping entries) ∧ typed entries ∧
      NamesScope declaration (textOf entries "scope")

instance {typed : List (Yaml.Value × Yaml.Value) → Prop} [DecidablePred typed] (read : YamlReader)
    (declaration : Declaration) (body : List Char) :
    Decidable (Readable typed read declaration body) :=
  match found : read body with
  | some .null => .isTrue (.inl found)
  | some (.mapping entries) =>
    decidable_of_iff (typed entries ∧ NamesScope declaration (textOf entries "scope"))
      (by simp [Readable, found])
  | none | some (.bool _) | some (.integer _) | some (.float _) | some (.string _)
  | some (.sequence _) | some (.tagged _ _) => .isFalse (by simp [Readable, found])

/-- The texts of annotated modules, with the types of mappings left open. -/
structure Grammar (typed : List (Yaml.Value × Yaml.Value) → Prop) (read : YamlReader)
    (texts : List (List Char)) : Prop where
  attached : ∀ found ∈ attachments texts, ∃ statement declaration,
    found.statement? = some statement ∧ declared? statement = some declaration
  onePackage : (texts.filter declaresPackage).length ≤ 1
  packageFirst : ∀ found ∈ (attachments texts).head?, ∃ statement,
    found.statement? = some statement ∧ declaresPackage statement
  readable : ∀ found ∈ attachments texts, ∀ statement declaration,
    found.statement? = some statement → declared? statement = some declaration →
      Readable typed read declaration found.body

/-- The body of a block and what it documents. -/
def Attachment.documents (found : Attachment) : List Char × Option Declaration :=
  (found.body, found.statement?.bind declared?)

/-! ### Lines and items -/

theorem nextDeclaration?_itemsFrom (row : Nat) (texts : List (List Char)) :
    nextDeclaration? (itemsFrom row (texts.map Line.ofText)) =
      (nextStatement? texts).bind declared? := by
  induction texts generalizing row with
  | nil => rfl
  | cons text rest ih =>
    have declares := declared?_eq text
    rw [nextStatement?, isMarker_eq, isStatement_eq, List.map_cons, itemsFrom_cons]
    cases line : Line.ofText text with
    | blank => simpa [item?, Line.isMarker, Line.isStatement] using ih (row + 1)
    | comment _ => simpa [item?, Line.isMarker, Line.isStatement] using ih (row + 1)
    | marker => simp [item?, Line.isMarker, nextDeclaration?, Item.declaration?]
    | package _ =>
      simp [item?, Line.isMarker, Line.isStatement, nextDeclaration?, Item.declaration?, declares,
        line, Line.declaration?]
    | statement _ =>
      simp [item?, Line.isMarker, Line.isStatement, nextDeclaration?, Item.declaration?, declares,
        line, Line.declaration?]

theorem documented_itemsFrom (row : Nat) (texts : List (List Char)) :
    documented (itemsFrom row (texts.map Line.ofText)) =
      (attachments texts).map Attachment.documents := by
  induction texts generalizing row with
  | nil => rfl
  | cons text rest ih =>
    rw [attachments, isMarker_eq, List.map_cons, itemsFrom_cons]
    cases Line.ofText text with
    | marker =>
      simp [item?, Line.isMarker, documented, Attachment.documents, nextDeclaration?_itemsFrom, ih]
    | blank => simpa [item?, Line.isMarker] using ih (row + 1)
    | comment _ => simpa [item?, Line.isMarker] using ih (row + 1)
    | package _ => simpa [item?, Line.isMarker, documented] using ih (row + 1)
    | statement _ => simpa [item?, Line.isMarker, documented] using ih (row + 1)

theorem countP_isPackage_itemsFrom (row : Nat) (texts : List (List Char)) :
    (itemsFrom row (texts.map Line.ofText)).countP Item.isPackage =
      (texts.filter declaresPackage).length := by
  induction texts generalizing row with
  | nil => rfl
  | cons text rest ih =>
    rw [List.map_cons, itemsFrom_cons, List.countP_append, ih, List.filter_cons, declaresPackage_eq]
    cases Line.ofText text with
    | package _ =>
      simp [item?, Item.isPackage, Line.declaresPackage]
      omega
    | _ => simp [item?, Item.isPackage, Line.declaresPackage]

/-! ### Acceptance -/

theorem accepts_iff_readable {read : YamlReader} {body : List Char} {declaration : Declaration} :
    Accepts (Metadata.ofTextWith read) (body, some declaration) ↔
      Readable WellTyped read declaration body := by
  simp only [Accepts, ofTextWith_eq_ok_iff, Readable]
  constructor
  · rintro ⟨_, _, same, ⟨null, rfl⟩ | ⟨entries, mapping, typed, rfl⟩, names⟩
    · exact .inl null
    · cases same
      exact .inr ⟨entries, mapping, typed, names⟩
  · rintro (null | ⟨entries, mapping, typed, names⟩)
    · exact ⟨declaration, .empty, rfl, .inl ⟨null, rfl⟩, by simp [NamesScope, Metadata.empty]⟩
    · exact ⟨declaration, fieldsOf entries, rfl, .inr ⟨entries, mapping, typed, rfl⟩, names⟩

theorem declared?_eq_package_iff {text : List Char} :
    declared? text = some .package ↔ declaresPackage text = true := by
  cases declares : declaresPackage text with
  | true => simp [declared?, declares]
  | false => simp [declared?, declares]

theorem accepts_documents_iff {read : YamlReader} {found : Attachment} :
    Accepts (Metadata.ofTextWith read) found.documents ↔
      ∃ statement declaration, found.statement? = some statement ∧
        declared? statement = some declaration ∧
        Readable WellTyped read declaration found.body := by
  cases follows : found.statement? with
  | none => simp [Attachment.documents, follows, not_accepts_none]
  | some statement =>
    cases declares : declared? statement with
    | none => simp [Attachment.documents, follows, declares, not_accepts_none]
    | some declaration =>
      simp [Attachment.documents, follows, declares, accepts_iff_readable]

theorem documents_package_iff {found : Attachment} :
    found.documents.2 = some .package ↔
      ∃ statement, found.statement? = some statement ∧ declaresPackage statement := by
  simp [Attachment.documents, Option.bind_eq_some_iff, declared?_eq_package_iff]

/-- The grammar, block by block. -/
theorem grammar_iff {read : YamlReader} {texts : List (List Char)} :
    Grammar WellTyped read texts ↔
      (∀ found ∈ attachments texts, Accepts (Metadata.ofTextWith read) found.documents) ∧
      (texts.filter declaresPackage).length ≤ 1 ∧
      ∀ found ∈ (attachments texts).head?, found.documents.2 = some .package := by
  simp only [accepts_documents_iff, documents_package_iff]
  constructor
  · intro grammar
    refine ⟨fun found mem => ?_, grammar.onePackage, grammar.packageFirst⟩
    obtain ⟨statement, declaration, follows, declares⟩ := grammar.attached found mem
    exact ⟨statement, declaration, follows, declares,
      grammar.readable found mem statement declaration follows declares⟩
  · rintro ⟨accepted, onePackage, packageFirst⟩
    refine ⟨fun found mem => ?_, onePackage, packageFirst, ?_⟩
    · obtain ⟨statement, declaration, follows, declares, _⟩ := accepted found mem
      exact ⟨statement, declaration, follows, declares⟩
    · intro found mem statement declaration follows declares
      obtain ⟨_, _, follows', declares', readable⟩ := accepted found mem
      obtain rfl := Option.some.inj (follows'.symm.trans follows)
      obtain rfl := Option.some.inj (declares'.symm.trans declares)
      exact readable

/-- Every fault lies on one of the lines. -/
theorem annotationsWith_error_line {decode : Decoder} {path : Path} {content : String}
    {error : ParseError} (h : annotationsWith decode path content = .error error) :
    error.path = path ∧ 1 ≤ error.line ∧
      error.line ≤ (Text.lines content.toList).length := by
  have onLine : error.path = path ∧ error.line ∈ (items content.toList).map Item.row := by
    rcases annotationsWith_error h with fault | ⟨notes, derived, fault⟩
    · exact annotateItems_error fault
    · obtain ⟨samePath, mem⟩ := checkGroupingFrom_error fault
      rw [(annotateItems_eq_ok_iff.1 derived).rows] at mem
      refine ⟨samePath, ?_⟩
      obtain ⟨block, found, same⟩ := List.mem_map.1 mem
      exact List.mem_map.2 ⟨.block block, mem_of_mem_blocks found, same⟩
  obtain ⟨samePath, mem⟩ := onLine
  obtain ⟨item, found, same⟩ := List.mem_map.1 mem
  have bounds := row_of_mem_itemsFrom found
  simp only [linesOf, List.length_map] at bounds
  exact ⟨samePath, by omega, by omega⟩

/-- Extraction accepts the texts that follow the grammar, and every other text has a fault on one of
its lines. -/
theorem annotations_ok_iff_grammar (read : YamlReader) (path : Path) (content : String) :
    ((∃ notes, annotationsWith (Metadata.ofTextWith read) path content = .ok notes) ↔
      Grammar WellTyped read (Text.lines content.toList)) ∧
    (¬ Grammar WellTyped read (Text.lines content.toList) →
      ∃ error, annotationsWith (Metadata.ofTextWith read) path content = .error error ∧
        error.path = path ∧ 1 ≤ error.line ∧
        error.line ≤ (Text.lines content.toList).length) := by
  have accepted : (∃ notes, annotationsWith (Metadata.ofTextWith read) path content = .ok notes) ↔
      Grammar WellTyped read (Text.lines content.toList) := by
    have found : documentedFrom none (items content.toList) =
        (attachments (Text.lines content.toList)).map Attachment.documents :=
      documented_itemsFrom 1 (Text.lines content.toList)
    have count : (items content.toList).countP Item.isPackage =
        ((Text.lines content.toList).filter declaresPackage).length :=
      countP_isPackage_itemsFrom 1 (Text.lines content.toList)
    simp only [annotationsWith_eq_ok_iff, annotates_grouped_iff, found, count, grammar_iff,
      List.forall_mem_map, List.head?_map, Option.mem_def, Option.map_eq_some_iff,
      forall_exists_index, and_imp, forall_apply_eq_imp_iff₂]
  refine ⟨accepted, fun outside => ?_⟩
  cases result : annotationsWith (Metadata.ofTextWith read) path content with
  | ok notes => exact absurd (accepted.1 ⟨notes, result⟩) outside
  | error error => exact ⟨error, rfl, annotationsWith_error_line result⟩

/-- A text of one block is enough to tell a grammar from the texts that are accepted. -/
theorem not_ok_iff_grammar {typed : List (Yaml.Value × Yaml.Value) → Prop} {body : List Char}
    {content : String}
    (blocks : attachments (Text.lines content.toList) = [⟨body, some "package a".toList⟩])
    (onePackage : ((Text.lines content.toList).filter declaresPackage).length ≤ 1)
    (readable : Readable typed Yaml.Value.ofText? .package body)
    (refused : (annotationsWith (Metadata.ofTextWith Yaml.Value.ofText?) (Path.ofText "a.rego")
      content).isOk = false) :
    ¬ ∀ (read : YamlReader) (path : Path) (content : String),
      (∃ notes, annotationsWith (Metadata.ofTextWith read) path content = .ok notes) ↔
        Grammar typed read (Text.lines content.toList) := by
  intro same
  have declares : declared? "package a".toList = some .package := by decide +kernel
  have grammar : Grammar typed Yaml.Value.ofText? (Text.lines content.toList) := by
    constructor
    · rw [blocks]
      exact List.forall_mem_singleton.2 ⟨_, _, rfl, declares⟩
    · exact onePackage
    · rw [blocks]
      rintro _ ⟨⟩
      exact ⟨_, rfl, declared?_eq_package_iff.1 declares⟩
    · rw [blocks, List.forall_mem_singleton]
      rintro _ declaration ⟨⟩ declares'
      obtain rfl := Option.some.inj (declares.symm.trans declares')
      exact readable
  obtain ⟨notes, accepted⟩ := (same _ (Path.ofText "a.rego") _).2 grammar
  rw [accepted] at refused
  contradiction

/-- A mapping may have its fields well typed and be refused for another key that is no text, and one
with texts for keys may be refused for a field that stands twice, once with a tag. -/
theorem not_ok_iff_grammar_fieldsTyped :
    (¬ ∀ (read : YamlReader) (path : Path) (content : String),
      (∃ notes, annotationsWith (Metadata.ofTextWith read) path content = .ok notes) ↔
        Grammar FieldsTyped read (Text.lines content.toList)) ∧
    ¬ ∀ (read : YamlReader) (path : Path) (content : String),
      (∃ notes, annotationsWith (Metadata.ofTextWith read) path content = .ok notes) ↔
        Grammar (fun entries => FieldsTyped entries ∧
          ∀ entry ∈ entries, (keyText? entry.1).isSome) read (Text.lines content.toList) := by
  constructor
  · refine @not_ok_iff_grammar _ "1: x\n".toList "# METADATA\n# 1: x\npackage a\n" ?_ ?_ ?_ ?_
    all_goals decide +kernel
  · refine @not_ok_iff_grammar _ "title: A\n!x title: B\n".toList
      "# METADATA\n# title: A\n# !x title: B\npackage a\n" ?_ ?_ ?_ ?_
    all_goals decide +kernel

end PolicyPages.Source
