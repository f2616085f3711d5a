import PolicyPages.Source.Metadata

/-!
# Well-typed bodies

Which YAML values are metadata, said of the values alone. `FieldsTyped` asks that the fields that
are read have values of the right kind; `WellTyped` asks besides that all keys are texts and that
none of these fields stands twice. `ofTextWith_eq_ok_iff`: a body is metadata exactly when it is
null or a well-typed mapping, and its metadata are the values of the fields.
-/

namespace PolicyPages.Source

open Json (Value)

/-- The fields whose values are texts. -/
def textFields : List String := ["scope", "title", "description"]

/-- The values under a name in a mapping. -/
def valuesOf (entries : List (Yaml.Value × Yaml.Value)) (name : String) : List Yaml.Value :=
  (entries.filter fun entry => keyText? entry.1 = some name).map Prod.snd

/-- The text under a name, if there is one. -/
def textOf (entries : List (Yaml.Value × Yaml.Value)) (name : String) : Option String :=
  ((valuesOf entries name).head?.bind optionalText?).join

/-- The values of the fields of a mapping. -/
def fieldsOf (entries : List (Yaml.Value × Yaml.Value)) : Metadata where
  scope := textOf entries "scope"
  title := textOf entries "title"
  description := textOf entries "description"
  custom := ((valuesOf entries "custom").head?.bind customOf?).getD []

/-- The fields that are read have values of the right kind. -/
structure FieldsTyped (entries : List (Yaml.Value × Yaml.Value)) : Prop where
  texts : ∀ name ∈ textFields, ∀ value ∈ valuesOf entries name, (optionalText? value).isSome
  custom : ∀ value ∈ valuesOf entries "custom", (customOf? value).isSome

/-- Besides, the keys are texts, and no field that is read stands twice. -/
structure WellTyped (entries : List (Yaml.Value × Yaml.Value)) : Prop extends
    FieldsTyped entries where
  keys : ∀ entry ∈ entries, (keyText? entry.1).isSome
  single : ∀ name ∈ "custom" :: textFields, (valuesOf entries name).length ≤ 1

instance (entries : List (Yaml.Value × Yaml.Value)) : Decidable (FieldsTyped entries) :=
  decidable_of_iff
    ((∀ name ∈ textFields, ∀ value ∈ valuesOf entries name, (optionalText? value).isSome) ∧
      ∀ value ∈ valuesOf entries "custom", (customOf? value).isSome)
    ⟨fun ⟨texts, custom⟩ => ⟨texts, custom⟩, fun h => ⟨h.texts, h.custom⟩⟩

instance (entries : List (Yaml.Value × Yaml.Value)) : Decidable (WellTyped entries) :=
  decidable_of_iff
    (FieldsTyped entries ∧ (∀ entry ∈ entries, (keyText? entry.1).isSome) ∧
      ∀ name ∈ "custom" :: textFields, (valuesOf entries name).length ≤ 1)
    ⟨fun ⟨fields, keys, single⟩ => ⟨fields, keys, single⟩,
      fun h => ⟨h.toFieldsTyped, h.keys, h.single⟩⟩

/-! ### Fields -/

theorem mapM_textKeyed? (entries : List (Yaml.Value × Yaml.Value)) :
    entries.mapM textKeyed? =
      if entries.all fun entry => (keyText? entry.1).isSome then
        some (entries.filterMap textKeyed?)
      else none := by
  induction entries with
  | nil => rfl
  | cons entry rest ih =>
    rw [List.mapM_cons, ih]
    cases key : keyText? entry.1 with
    | none => simp [textKeyed?, key]
    | some name =>
      have keyed : textKeyed? entry = some (name, entry.2) := by simp [textKeyed?, key]
      cases keys : rest.all fun entry => (keyText? entry.1).isSome <;>
        simp [keyed, key, keys]

theorem field?_textKeyed (entries : List (Yaml.Value × Yaml.Value)) (name : String) :
    field? (entries.filterMap textKeyed?) name =
      match valuesOf entries name with
      | [] => some none
      | [value] => some (some value)
      | _ => none := by
  have same : ((entries.filterMap textKeyed?).filter (·.1 == name)) =
      (valuesOf entries name).map fun value => (name, value) := by
    induction entries with
    | nil => rfl
    | cons entry rest ih =>
      cases key : keyText? entry.1 with
      | none => simpa [textKeyed?, key, valuesOf] using ih
      | some other =>
        by_cases h : other = name
        · simpa [textKeyed?, key, valuesOf, h] using ih
        · simpa [textKeyed?, key, valuesOf, h] using ih
  rw [field?, same]
  match valuesOf entries name with
  | [] => rfl
  | [value] => rfl
  | _ :: _ :: _ => rfl

/-- A field is read when its name stands once at most, with a value of the right kind. -/
theorem textField?_eq_some_iff {entries : List (Yaml.Value × Yaml.Value)} {name : String}
    {text : Option String} :
    textField? (entries.filterMap textKeyed?) name = some text ↔
      (valuesOf entries name).length ≤ 1 ∧
        (∀ value ∈ valuesOf entries name, (optionalText? value).isSome) ∧
        text = textOf entries name := by
  rw [textField?, field?_textKeyed, textOf]
  match valuesOf entries name with
  | [] => simp [@eq_comm _ text]
  | [value] => cases found : optionalText? value <;> simp [found, @eq_comm _ text]
  | _ :: _ :: _ => simp

theorem customField?_eq_some_iff {entries : List (Yaml.Value × Yaml.Value)}
    {custom : Dictionary Value} :
    customField? (entries.filterMap textKeyed?) = some custom ↔
      (valuesOf entries "custom").length ≤ 1 ∧
        (∀ value ∈ valuesOf entries "custom", (customOf? value).isSome) ∧
        custom = (fieldsOf entries).custom := by
  rw [customField?, field?_textKeyed, fieldsOf]
  match valuesOf entries "custom" with
  | [] => simp
  | [value] =>
    cases found : customOf? value with
    | none => simp [found]
    | some entries =>
      simp only [found, List.head?_cons, Option.bind_some, Option.getD_some, Option.some.injEq]
      simpa [found] using eq_comm
  | _ :: _ :: _ => simp

/-! ### Bodies -/

/-- A mapping is metadata exactly when it is well typed. -/
theorem ofEntries?_eq_some_iff {entries : List (Yaml.Value × Yaml.Value)} {metadata : Metadata} :
    Metadata.ofEntries? entries = some metadata ↔
      WellTyped entries ∧ metadata = fieldsOf entries := by
  simp only [Metadata.ofEntries?, mapM_textKeyed?, Option.bind_eq_bind]
  cases keys : entries.all fun entry => (keyText? entry.1).isSome with
  | false =>
    have : ¬ WellTyped entries := fun typed => by
      rw [List.all_eq_true.2 typed.keys] at keys
      contradiction
    simp [this]
  | true =>
    simp only [if_true, Option.bind_some, Option.bind_eq_some_iff, textField?_eq_some_iff,
      customField?_eq_some_iff]
    constructor
    · rintro ⟨_, ⟨single₁, typed₁, rfl⟩, _, ⟨single₂, typed₂, rfl⟩, _, ⟨single₃, typed₃, rfl⟩,
        _, ⟨single₄, typed₄, rfl⟩, made⟩
      refine ⟨⟨⟨?_, typed₄⟩, List.all_eq_true.1 keys, ?_⟩, (Option.some.inj made).symm⟩
      · simpa [textFields] using ⟨typed₁, typed₂, typed₃⟩
      · simpa [textFields] using ⟨single₄, single₁, single₂, single₃⟩
    · rintro ⟨typed, rfl⟩
      have single := typed.single
      have texts := typed.texts
      simp only [textFields, List.forall_mem_cons] at single texts
      exact ⟨_, ⟨single.2.1, texts.1, rfl⟩, _, ⟨single.2.2.1, texts.2.1, rfl⟩,
        _, ⟨single.2.2.2.1, texts.2.2.1, rfl⟩, _, ⟨single.1, typed.custom, rfl⟩, rfl⟩

/-- A body is metadata exactly when it is null or a well-typed mapping. -/
theorem ofTextWith_eq_ok_iff {read : YamlReader} {body : List Char} {metadata : Metadata} :
    Metadata.ofTextWith read body = .ok metadata ↔
      (read body = some .null ∧ metadata = .empty) ∨
        ∃ entries, read body = some (.mapping entries) ∧ WellTyped entries ∧
          metadata = fieldsOf entries := by
  unfold Metadata.ofTextWith
  cases read body with
  | none => simp
  | some value =>
    cases value with
    | null => simp [Metadata.ofValue, eq_comm]
    | mapping entries =>
      cases found : Metadata.ofEntries? entries with
      | none =>
        have : ¬ WellTyped entries := fun typed => by
          rw [ofEntries?_eq_some_iff.2 ⟨typed, rfl⟩] at found
          contradiction
        simp [Metadata.ofValue, found, this]
      | some fields =>
        obtain ⟨typed, rfl⟩ := ofEntries?_eq_some_iff.1 found
        simp [Metadata.ofValue, found, typed, eq_comm]
    | _ => simp [Metadata.ofValue]

end PolicyPages.Source
