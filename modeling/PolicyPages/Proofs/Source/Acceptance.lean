import PolicyPages.Proofs.Source.Shape

/-!
# Which items are accepted

Whether annotations can be derived from items, without deriving them. `documented` pairs the body of
each block with what the item right after it declares; items are accepted when every pair is
(`Accepts`) and the package is declared once at most. `annotates_declared_iff` is the part after the
declaration of the package, `annotates_grouped_iff` the whole.
-/

namespace PolicyPages.Source

/-- What an item declares, if it can be annotated. -/
def Item.declaration? : Item → Option Declaration
  | .block _ => none
  | .package _ _ => some .package
  | .statement _ text => (ruleName? text).map .rule

def Item.isPackage : Item → Bool
  | .package _ _ => true
  | _ => false

/-- What the first of the items declares. -/
def nextDeclaration? (items : List Item) : Option Declaration :=
  items.head?.bind Item.declaration?

/-- The bodies of the blocks among items, each with what the item after it declares. -/
def documented : List Item → List (List Char × Option Declaration)
  | [] => []
  | .block block :: rest => (block.body, nextDeclaration? rest) :: documented rest
  | _ :: rest => documented rest

/-- The same for a block that waits and the items to come. -/
def documentedFrom (pending : Option Block) (items : List Item) :
    List (List Char × Option Declaration) :=
  (pending.toList.map fun block => (block.body, nextDeclaration? items)) ++ documented items

/-- A body can be the annotation of what stands after it. -/
def Accepts (decode : Decoder) (found : List Char × Option Declaration) : Prop :=
  ∃ declaration metadata, found.2 = some declaration ∧ decode found.1 = .ok metadata ∧
    NamesScope declaration metadata.scope

section

variable {decode : Decoder} {path : Path} {segments : List String} {pending : Option Block}
  {items : List Item}

theorem length_documentedFrom (pending : Option Block) (items : List Item) :
    (documentedFrom pending items).length = pending.toList.length + (blocks items).length := by
  have : (documented items).length = (blocks items).length := by
    induction items with
    | nil => rfl
    | cons item rest ih => cases item <;> simp [documented, blocks, ih]
  simp [documentedFrom, this]

/-- A block annotates what stands after it once the package is declared. -/
theorem exists_annotate_iff {block : Block} {declaration : Declaration} :
    (∃ note, annotate decode path (some segments) block declaration = .ok note) ↔
      Accepts decode (block.body, some declaration) := by
  simp only [annotate_eq_ok_iff, Accepts]
  constructor
  · rintro ⟨_, _, metadata, _, decoded, names, _⟩
    exact ⟨declaration, metadata, rfl, decoded, names⟩
  · rintro ⟨_, metadata, same, decoded, names⟩
    cases same
    exact ⟨_, segments, metadata, rfl, decoded, names, rfl⟩

theorem not_accepts_none {body : List Char} : ¬ Accepts decode (body, none) := by
  rintro ⟨_, _, declared, _⟩
  contradiction

/-- After the declaration of the package, items are accepted when every block is and no package is
declared any more. -/
theorem annotates_declared_iff :
    (∃ notes, Annotates decode path (some segments) pending items notes) ↔
      (∀ found ∈ documentedFrom pending items, Accepts decode found) ∧
        items.countP Item.isPackage = 0 := by
  induction items generalizing pending with
  | nil =>
    cases pending with
    | none => simp [Annotates.nil_iff, documentedFrom, documented]
    | some block =>
      simp [Annotates.not_nil, documentedFrom, nextDeclaration?, not_accepts_none]
  | cons item rest ih =>
    cases item with
    | block next =>
      cases pending with
      | none =>
        simp only [Annotates.block_iff, ih]
        simp [documentedFrom, documented, Item.isPackage]
      | some block =>
        simp [Annotates.not_block, documentedFrom, nextDeclaration?, Item.declaration?,
          not_accepts_none]
    | package row others => simp [Annotates.not_package, Item.isPackage]
    | statement row text =>
      cases pending with
      | none =>
        simp only [Annotates.statement_iff, ih]
        simp [documentedFrom, documented, Item.isPackage]
      | some block =>
        cases named : ruleName? text with
        | none =>
          simp [Annotates.ruleNote_iff, named, documentedFrom, nextDeclaration?, Item.declaration?,
            not_accepts_none]
        | some name =>
          have step : (∃ notes, Annotates decode path (some segments) (some block)
                (.statement row text :: rest) notes) ↔
              (∃ note, annotate decode path (some segments) block (.rule name) = .ok note) ∧
                ∃ notes, Annotates decode path (some segments) none rest notes := by
            simp only [Annotates.ruleNote_iff, named]
            constructor
            · rintro ⟨_, _, note, later, same, annotated, derived, _⟩
              cases same
              exact ⟨⟨note, annotated⟩, later, derived⟩
            · rintro ⟨⟨note, annotated⟩, later, derived⟩
              exact ⟨_, name, note, later, rfl, annotated, derived, rfl⟩
          rw [step, exists_annotate_iff, ih]
          simp [documentedFrom, documented, nextDeclaration?, Item.declaration?, Item.isPackage,
            named, and_assoc]

/-! ### Before the declaration of the package -/

theorem nextDeclaration?_ne_package (h : items.countP Item.isPackage = 0) :
    nextDeclaration? items ≠ some .package := by
  cases items with
  | nil => simp [nextDeclaration?]
  | cons item rest =>
    cases item with
    | block _ => simp [nextDeclaration?, Item.declaration?]
    | package _ _ => simp [Item.isPackage] at h
    | statement _ text => simp [nextDeclaration?, Item.declaration?]

/-- Where no package is declared, no block documents one. -/
theorem ne_package_of_mem_documented (h : items.countP Item.isPackage = 0)
    {found : List Char × Option Declaration} (mem : found ∈ documented items) :
    found.2 ≠ some .package := by
  induction items with
  | nil => contradiction
  | cons item rest ih =>
    rw [List.countP_cons] at h
    have noneLater : rest.countP Item.isPackage = 0 := by omega
    cases item with
    | block block =>
      rcases List.mem_cons.1 mem with rfl | later
      · exact nextDeclaration?_ne_package noneLater
      · exact ih noneLater later
    | package _ _ => exact ih noneLater mem
    | statement _ _ => exact ih noneLater mem

/-- Below a package that has no annotation of its own, nothing may be annotated. -/
theorem grouped_iff_documented_eq_nil {notes : List Annotation}
    (h : Annotates decode path (some segments) none items notes) :
    Grouped notes ↔ documented items = [] := by
  have rows := congrArg List.length h.rows
  have lengths := length_documentedFrom none items
  simp only [List.length_map, Option.toList_none, List.map_nil, List.nil_append,
    documentedFrom, List.length_nil, Nat.zero_add] at rows lengths
  constructor
  · rintro (rfl | ⟨package, rules, rfl, isPackage, _⟩)
    · exact List.length_eq_zero_iff.1 (by rw [lengths, ← rows, List.length_nil])
    · obtain ⟨_, _, isRule, _⟩ := h.belowPackage package List.mem_cons_self
      rw [isPackage] at isRule
      contradiction
  · intro none
    exact .inl (List.length_eq_zero_iff.1 (by rw [rows, ← lengths, none, List.length_nil]))

/-- Items are accepted when every block is, the package is declared once at most, and the first
block documents it. -/
theorem annotates_grouped_iff :
    (∃ notes, Annotates decode path none pending items notes ∧ Grouped notes) ↔
      (∀ found ∈ documentedFrom pending items, Accepts decode found) ∧
        items.countP Item.isPackage ≤ 1 ∧
        ∀ found ∈ (documentedFrom pending items).head?, found.2 = some .package := by
  induction items generalizing pending with
  | nil =>
    cases pending with
    | none => simp [Annotates.nil_iff, documentedFrom, documented, Grouped]
    | some block =>
      simp [Annotates.not_nil, documentedFrom, nextDeclaration?, not_accepts_none]
  | cons item rest ih =>
    cases item with
    | block next =>
      cases pending with
      | none =>
        simp only [Annotates.block_iff, ih]
        simp [documentedFrom, documented, Item.isPackage]
      | some block =>
        simp [Annotates.not_block, documentedFrom, nextDeclaration?, Item.declaration?,
          not_accepts_none]
    | statement row text =>
      cases pending with
      | none =>
        simp only [Annotates.statement_iff, ih]
        simp [documentedFrom, documented, Item.isPackage]
      | some block =>
        simp [Annotates.ruleNote_iff, annotate_eq_ok_iff, documentedFrom, nextDeclaration?,
          Item.declaration?]
    | package row segments =>
      have once : (Item.package row segments :: rest).countP Item.isPackage ≤ 1 ↔
          rest.countP Item.isPackage = 0 := by
        rw [List.countP_cons_of_pos rfl]
        omega
      have below := @annotates_declared_iff decode path segments none rest
      rw [once]
      cases pending with
      | none =>
        -- The package has no annotation, so there must be no block at all.
        have grouped : (∃ notes, Annotates decode path (some segments) none rest notes ∧
              Grouped notes) ↔
            (∃ notes, Annotates decode path (some segments) none rest notes) ∧
              documented rest = [] := by
          constructor
          · rintro ⟨notes, derived, grouped⟩
            exact ⟨⟨notes, derived⟩, (grouped_iff_documented_eq_nil derived).1 grouped⟩
          · rintro ⟨⟨notes, derived⟩, none⟩
            exact ⟨notes, derived, (grouped_iff_documented_eq_nil derived).2 none⟩
        simp only [Annotates.package_iff, grouped, below, and_assoc]
        refine and_congr_right fun accepted => and_congr_right fun noneLater => ?_
        constructor
        · intro none
          simp [documentedFrom, documented, none]
        · intro first
          cases found : documented rest with
          | nil => rfl
          | cons head tail =>
            have isPackage := first head (by simp [documentedFrom, documented, found])
            exact absurd isPackage
              (ne_package_of_mem_documented noneLater (by rw [found]; exact List.mem_cons_self))
      | some block =>
        -- The annotation of the package groups whatever follows it.
        have step : (∃ notes, Annotates decode path none (some block)
              (.package row segments :: rest) notes ∧ Grouped notes) ↔
            (∃ note, annotate decode path (some segments) block .package = .ok note) ∧
              ∃ notes, Annotates decode path (some segments) none rest notes := by
          simp only [Annotates.packageNote_iff]
          constructor
          · rintro ⟨_, ⟨note, later, annotated, derived, rfl⟩, _⟩
            exact ⟨⟨note, annotated⟩, later, derived⟩
          · rintro ⟨⟨note, annotated⟩, later, derived⟩
            refine ⟨_, ⟨note, later, annotated, derived, rfl⟩, .inr ⟨note, later, rfl, ?_, ?_⟩⟩
            · exact (isNoteIn_of_annotate annotated).1
            · intro rule mem
              obtain ⟨_, _, isRule, _⟩ := derived.belowPackage rule mem
              exact isRule
        rw [step, exists_annotate_iff, below]
        simp [documentedFrom, documented, nextDeclaration?, Item.declaration?, and_assoc]

end

end PolicyPages.Source
