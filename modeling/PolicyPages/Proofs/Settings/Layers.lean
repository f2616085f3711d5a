import PolicyPages.Proofs.Json.Layers
import PolicyPages.Proofs.Settings.Validity

/-!
# The layers of settings

A settings file whose own members are texts or null, in sections that are objects or null, gives each
setting its text, and leaves the others at their defaults (`settings_of_ofText?`). So what is loaded is
those settings with the overrides of the environment, if they are valid, and no other member of the
file counts (`loadFrom_layers`).
-/

namespace PolicyPages

open Json (Value)
open Json.Value (overMember membersLaidOver laidOver_object string_laidOver get?_membersLaidOver)

/-! ### What a file sets -/

/-- The section that holds the setting which a variable overrides. -/
def OverrideKey.sectionName : OverrideKey → String
  | logLevel => "logging"
  | ruleSuffix | testSuffix => "discovery"
  | sourceUrl => "render"

/-- The name of the setting in its section. -/
def OverrideKey.memberName : OverrideKey → String
  | logLevel => "level"
  | ruleSuffix => "ruleSuffix"
  | testSuffix => "testSuffix"
  | sourceUrl => "sourceUrl"

namespace Settings

/-- The members of a section of a file; one that is missing or null has none. -/
def sectionOf (members : Dictionary Value) (name : String) : Dictionary Value :=
  ((Dictionary.get? members name).bind Value.object?).getD []

/-- The text that a file has for a setting, if it has one. -/
def textOf? (members : Dictionary Value) (key : OverrideKey) : Option String :=
  (Dictionary.get? (sectionOf members key.sectionName) key.memberName).bind Value.string?

/-- The sections of a file are objects or null, and the settings in them are texts or null. Any other
member may be anything. -/
structure IsPartial (members : Dictionary Value) : Prop where
  sections : ∀ (key : OverrideKey) (value : Value),
    Dictionary.get? members key.sectionName = some value →
    value = .null ∨ ∃ inside, value = .object inside
  texts : ∀ (key : OverrideKey) (value : Value),
    Dictionary.get? (sectionOf members key.sectionName) key.memberName = some value →
    value = .null ∨ ∃ text, value = .string text

theorem isPartial_iff {members : Dictionary Value} :
    IsPartial members ↔ ∀ key ∈ OverrideKey.all,
      ((Dictionary.get? members key.sectionName).all fun value =>
        value.isNull || value.object?.isSome) = true ∧
      ((Dictionary.get? (sectionOf members key.sectionName) key.memberName).all fun value =>
        value.isNull || value.string?.isSome) = true := by
  have object (value : Value) : (value.isNull || value.object?.isSome) = true ↔
      value = .null ∨ ∃ inside, value = .object inside := by
    cases value <;> simp [Json.Value.isNull, Json.Value.object?]
  have text (value : Value) : (value.isNull || value.string?.isSome) = true ↔
      value = .null ∨ ∃ text, value = .string text := by
    cases value <;> simp [Json.Value.isNull, Json.Value.string?]
  have all (key : OverrideKey) : key ∈ OverrideKey.all := by cases key <;> decide
  simp only [Option.all_eq_true, object, text, all, true_imp_iff]
  constructor
  · rintro ⟨sections, texts⟩ key
    exact ⟨sections key, texts key⟩
  · intro both
    exact ⟨fun key => (both key).1, fun key => (both key).2⟩

instance (members : Dictionary Value) : Decidable (IsPartial members) :=
  decidable_of_iff' _ isPartial_iff

/-- The settings of a file: each has the text of the file, or its default if there is none. -/
def layered (members : Dictionary Value) : Settings where
  logging := ⟨(textOf? members .logLevel).getD default.logging.level⟩
  discovery := ⟨(textOf? members .ruleSuffix).getD default.discovery.ruleSuffix,
    (textOf? members .testSuffix).getD default.discovery.testSuffix⟩
  render := ⟨(textOf? members .sourceUrl).or default.render.sourceUrl⟩

/-! ### What is read of the layers -/

/-- The section of a setting, as the defaults have it. -/
def defaultSection : OverrideKey → Dictionary Value
  | .logLevel => Dictionary.ofList [("level", .string default.logging.level)]
  | .ruleSuffix | .testSuffix => Dictionary.ofList
    [("ruleSuffix", .string default.discovery.ruleSuffix),
      ("testSuffix", .string default.discovery.testSuffix)]
  | .sourceUrl => []

section

variable {members : Dictionary Value}

theorem sorted_sectionOf (sorted : (Value.object members).Sorted) (name : String) :
    Dictionary.Sorted (sectionOf members name) := by
  unfold sectionOf
  cases found : Dictionary.get? members name with
  | none => exact List.Pairwise.nil
  | some value =>
    cases value with
    | object inside => exact (sorted.member found).keys
    | _ => exact List.Pairwise.nil

/-- A section of the file lies over that of the defaults, member by member. -/
theorem get?_section (sorted : Dictionary.Sorted members) (partly : IsPartial members)
    (key : OverrideKey) {base below : Dictionary Value}
    (default : Dictionary.get? base key.sectionName = some (.object below)) :
    Dictionary.get? (membersLaidOver members base) key.sectionName =
      some (.object (membersLaidOver (sectionOf members key.sectionName) below)) := by
  have nothing : membersLaidOver [] below = below := by rw [membersLaidOver]
  rw [get?_membersLaidOver sorted, default, sectionOf]
  cases found : Dictionary.get? members key.sectionName with
  | none => exact congrArg (some ∘ Value.object) nothing.symm
  | some value =>
    rcases partly.sections key value found with rfl | ⟨inside, rfl⟩
    · exact congrArg (some ∘ Value.object) nothing.symm
    · exact congrArg some (laidOver_object inside below)

/-- A setting has the text of the file, or what is below in the defaults. -/
theorem get?_setting (sorted : (Value.object members).Sorted) (partly : IsPartial members)
    (key : OverrideKey) (below : Dictionary Value) :
    Dictionary.get? (membersLaidOver (sectionOf members key.sectionName) below) key.memberName =
      ((textOf? members key).map Value.string).or (Dictionary.get? below key.memberName) := by
  rw [get?_membersLaidOver (sorted_sectionOf sorted _), textOf?]
  cases found : Dictionary.get? (sectionOf members key.sectionName) key.memberName with
  | none => rfl
  | some value =>
    rcases partly.texts key value found with rfl | ⟨text, rfl⟩
    · rfl
    · cases Dictionary.get? below key.memberName with
      | none => rfl
      | some lower => exact congrArg some (string_laidOver text lower)

/-- A text field whose default lies below has a text in any case. -/
theorem textField?_setting (sorted : (Value.object members).Sorted) (partly : IsPartial members)
    (key : OverrideKey) (position : Nat) {text : String}
    (lower : Dictionary.get? (defaultSection key) key.memberName = some (.string text)) :
    textField? (.object (membersLaidOver (sectionOf members key.sectionName) (defaultSection key)))
      key.memberName position text = some ((textOf? members key).getD text) := by
  have found := get?_setting sorted partly key (defaultSection key)
  rw [lower] at found
  unfold textField? recordField
  dsimp only
  rw [found]
  cases textOf? members key <;> rfl

/-- A section of the file over that of the defaults, as it is read. -/
def layeredSection (members : Dictionary Value) (key : OverrideKey) : Value :=
  .object (membersLaidOver (sectionOf members key.sectionName) (defaultSection key))

theorem isRecord_layeredSection (fields : Nat) (key : OverrideKey) :
    isRecord fields (layeredSection members key) = true := rfl

theorem ofJson?_logging (sorted : (Value.object members).Sorted) (partly : IsPartial members) :
    LoggingSettings.ofJson? (layeredSection members .logLevel) =
      some (layered members).logging := by
  have level : textField? (layeredSection members .logLevel) "level" 0 _ = some _ :=
    textField?_setting sorted partly .logLevel 0 rfl
  unfold LoggingSettings.ofJson?
  rw [if_pos (isRecord_layeredSection 1 _), level]
  rfl

theorem ofJson?_discovery (sorted : (Value.object members).Sorted) (partly : IsPartial members) :
    DiscoverySettings.ofJson? (layeredSection members .ruleSuffix) =
      some (layered members).discovery := by
  have rule : textField? (layeredSection members .ruleSuffix) "ruleSuffix" 0 _ = some _ :=
    textField?_setting sorted partly .ruleSuffix 0 rfl
  have test : textField? (layeredSection members .ruleSuffix) "testSuffix" 1 _ = some _ :=
    textField?_setting sorted partly .testSuffix 1 rfl
  unfold DiscoverySettings.ofJson?
  rw [if_pos (isRecord_layeredSection 2 _), rule, test]
  rfl

/-- The defaults have no source address, so there is one only if the file has it. -/
theorem ofJson?_render (sorted : (Value.object members).Sorted) (partly : IsPartial members) :
    RenderSettings.ofJson? (layeredSection members .sourceUrl) = some (layered members).render := by
  have url : recordField (layeredSection members .sourceUrl) "sourceUrl" 0 = _ :=
    get?_setting sorted partly .sourceUrl []
  unfold RenderSettings.ofJson? layered
  rw [if_pos (isRecord_layeredSection 1 _), url]
  cases textOf? members .sourceUrl <;> rfl

/-- The defaults have a section for each setting. -/
theorem exists_toJson_default : ∃ base, default.toJson = .object base ∧
    ∀ key : OverrideKey,
      Dictionary.get? base key.sectionName = some (.object (defaultSection key)) := by
  refine ⟨_, rfl, fun key => ?_⟩
  cases key <;>
    simp [OverrideKey.sectionName, defaultSection, Dictionary.ofList, Dictionary.insertAll,
      Dictionary.get?_insert, default]

/-- The settings that are read from a file laid over the defaults. -/
theorem ofJson?_laidOver (sorted : (Value.object members).Sorted) (partly : IsPartial members) :
    ofJson? ((Value.object members).laidOver default.toJson) = some (layered members) := by
  obtain ⟨base, defaults, sections⟩ := exists_toJson_default
  have record : isRecord 3 (.object (membersLaidOver members base)) = true := rfl
  have read {α : Type} (key : OverrideKey) (position : Nat) (read : Value → Option α) (fallback : α) :
      sectionField? (.object (membersLaidOver members base)) key.sectionName position read fallback =
        read (layeredSection members key) := by
    have found : recordField (.object (membersLaidOver members base)) key.sectionName position = _ :=
      get?_section sorted.keys partly key (sections key)
    rw [sectionField?, found]
    rfl
  have logging := (read .logLevel 0 _ default.logging).trans (ofJson?_logging sorted partly)
  have discovery := (read .ruleSuffix 1 _ default.discovery).trans (ofJson?_discovery sorted partly)
  have render := (read .sourceUrl 2 _ default.render).trans (ofJson?_render sorted partly)
  dsimp only [OverrideKey.sectionName] at logging discovery render
  rw [defaults, laidOver_object, ofJson?, if_pos record, logging, discovery, render]
  rfl

/-! ### What is loaded -/

theorem settings_of_ofText? {text : String} (object : Value.ofText? text = some (.object members))
    (partly : IsPartial members) : (SettingsFile.text text).settings = .ok (layered members) := by
  have sorted := Json.Value.sorted_of_ofText? object
  simp only [SettingsFile.settings, object, ofJson?_laidOver sorted partly]

theorem fileIn_of_read {tree : Files.Tree} {path : Path} {text : String}
    (file : tree.read path = .ok text) : fileIn tree path = .text text := by
  have there : tree.holds path = true := by
    unfold Files.Tree.read at file
    obtain ⟨found, leads, -⟩ := bind_eq_ok_iff.1 file
    rw [Files.Tree.holds, leads]
  simp only [fileIn, there, file, if_true]

/-- The file lies over the defaults and the environment over both, and no other member of the file
counts. -/
theorem loadFrom_layers {path : Path} {session : Session} {text : String}
    (file : session.files.read path = .ok text)
    (object : Value.ofText? text = some (.object members)) (partly : IsPartial members)
    (environment : Environment) :
    ((∃ loaded after, (loadFrom path environment).Yields session loaded after) ↔
      ((layered members).override environment).value.validate = .ok ()) ∧
    (∀ loaded after, (loadFrom path environment).Yields session loaded after →
      loaded = (layered members).override environment) ∧
    ∀ (otherPath : Path) (other : Session) (otherText : String) (otherMembers : Dictionary Value),
      other.files.read otherPath = .ok otherText →
      Value.ofText? otherText = some (.object otherMembers) → IsPartial otherMembers →
      (∀ key, textOf? otherMembers key = textOf? members key) →
      ((loadFrom otherPath environment).outcome other).1 =
        ((loadFrom path environment).outcome session).1 := by
  have base := settings_of_ofText? object partly
  have loads {loaded : Overridden Settings} {after : Session}
      (yields : (loadFrom path environment).Yields session loaded after) :
      loaded = (layered members).override environment ∧ loaded.value.IsValid := by
    have same := yields_loadFrom_iff.1 ⟨after, yields⟩
    rw [fileIn_of_read file, load_eq_ok_iff, base] at same
    obtain ⟨settings, read, rfl, valid⟩ := same
    obtain rfl := Except.ok.inj read
    exact ⟨rfl, valid⟩
  refine ⟨⟨?_, fun accepted => ?_⟩, fun loaded after yields => (loads yields).1, ?_⟩
  · rintro ⟨loaded, after, yields⟩
    obtain ⟨rfl, valid⟩ := loads yields
    exact validate_eq_ok_iff.2 valid
  · refine ⟨(layered members).override environment, yields_loadFrom_iff.2 ?_⟩
    rw [fileIn_of_read file]
    exact load_eq_ok_iff.2 ⟨_, base, rfl, validate_eq_ok_iff.1 accepted⟩
  · intro otherPath other otherText otherMembers otherFile otherObject otherPartly same
    have again : layered otherMembers = layered members := by
      simp only [layered, same]
    have otherBase := settings_of_ofText? otherObject otherPartly
    obtain ⟨events, outcome⟩ := exists_outcome_loadFrom path session
    obtain ⟨otherEvents, otherOutcome⟩ := exists_outcome_loadFrom otherPath other
    rw [outcome, otherOutcome, fileIn_of_read file, fileIn_of_read otherFile]
    simp only [load, base, otherBase, again]

end

/-! ### Samples -/

/-- A file with a level and a source address, and with members that are no settings. -/
def fullText : String :=
  "\x7b\"logging\": \x7b\"level\": \"debug\", \"x\": [null]\x7d, \"discovery\": null, " ++
    "\"render\": \x7b\"sourceUrl\": \"https://a\"\x7d, \"y\": \x7b\"level\": 5\x7d\x7d"

def fullMembers : Dictionary Value :=
  [("discovery", .null),
    ("logging", .object [("level", .string "debug"), ("x", .array [.null])]),
    ("render", .object [("sourceUrl", .string "https://a")]),
    ("y", .object [("level", .integer ⟨5, by decide, by decide⟩)])]

/-- A file with the same settings and nothing else. -/
def bareText : String :=
  "\x7b\"render\": \x7b\"sourceUrl\": \"https://a\"\x7d, \"logging\": \x7b\"level\": \"debug\"\x7d\x7d"

def bareMembers : Dictionary Value :=
  [("logging", .object [("level", .string "debug")]),
    ("render", .object [("sourceUrl", .string "https://a")])]

/-- Both files are loaded to the same settings. -/
theorem loadFrom_layers_sample :
    let full := Session.start (sampleFiles fullText)
    let bare := Session.start (sampleFiles bareText)
    let environment := sampleEnvironment
      [("POLICYDOC_RULE_SUFFIX", ".rg"), ("POLICYDOC_LOG_LEVEL", "chatty")]
    full.files.read defaultPath = .ok fullText ∧ bare.files.read defaultPath = .ok bareText ∧
      Value.ofText? fullText = some (.object fullMembers) ∧
      Value.ofText? bareText = some (.object bareMembers) ∧
      IsPartial fullMembers ∧ IsPartial bareMembers ∧
      (∀ key, textOf? bareMembers key = textOf? fullMembers key) ∧
      (∃ loaded after, (loadFrom defaultPath environment).Yields full loaded after ∧
        loaded.value = ⟨⟨"debug"⟩, ⟨".rg", "_test.rg"⟩, ⟨some "https://a"⟩⟩ ∧
        loaded.ignored = [⟨.logLevel, "chatty", .unknownLevel⟩]) ∧
      ((loadFrom defaultPath environment).outcome bare).1 =
        ((loadFrom defaultPath environment).outcome full).1 := by
  intro full bare environment
  have files : full.files.read defaultPath = .ok fullText ∧
      bare.files.read defaultPath = .ok bareText := by decide +kernel
  have objects : Value.ofText? fullText = some (.object fullMembers) ∧
      Value.ofText? bareText = some (.object bareMembers) := by decide +kernel
  have partly : IsPartial fullMembers ∧ IsPartial bareMembers := by decide +kernel
  have same : ∀ key, textOf? bareMembers key = textOf? fullMembers key := by
    rintro (_ | _ | _ | _) <;> decide +kernel
  have base : layered fullMembers = ⟨⟨"debug"⟩, ⟨".rego", "_test.rego"⟩, ⟨some "https://a"⟩⟩ := by
    decide +kernel
  obtain ⟨succeeds, values, others⟩ := loadFrom_layers files.1 objects.1 partly.1 environment
  obtain ⟨loaded, after, yields⟩ := succeeds.2 (by decide +kernel)
  refine ⟨files.1, files.2, objects.1, objects.2, partly.1, partly.2, same,
    ⟨loaded, after, yields, ?_⟩, others _ _ _ _ files.2 objects.2 partly.2 same⟩
  rw [values _ _ yields, base]
  decide +kernel

/-- The text is that of an object, however deep and large, and no section of settings stands in it. -/
def HoldsNoSection (text : String) : Prop :=
  ∃ members, Json.Written.ofText? text = some (.object members) ∧
    ∀ member ∈ members, ∀ key : OverrideKey, member.1 ≠ some key.sectionName

/-- Not every object is loaded: a member that is no setting still has to be read, and its number may be
too large. -/
theorem not_every_object_loaded :
    ¬ ∀ (text : String) (environment : Environment), HoldsNoSection text →
      (default.override environment).value.validate = .ok () →
      ∃ loaded, load (.text text) environment = .ok loaded := by
  intro always
  let text := "\x7b\"x\": 1e999\x7d"
  have words : Json.tokens text.toList = some [.openBrace, .string (some "x"), .colon,
      .number ⟨false, [1], [], some 999⟩, .closeBrace] := by decide +kernel
  have object : HoldsNoSection text := by
    refine ⟨[(some "x", .number ⟨false, [1], [], some 999⟩)], ?_, ?_⟩
    · rw [Json.Written.ofText?, words]
      rfl
    · rintro member mem (_ | _ | _ | _) <;> simp_all [OverrideKey.sectionName]
  obtain ⟨loaded, loads⟩ := always text (sampleEnvironment []) object (by decide +kernel)
  have refused : Value.ofText? text = none := Option.isNone_iff_eq_none.1 (by decide +kernel)
  simp only [load, SettingsFile.settings, refused] at loads
  contradiction

end Settings

end PolicyPages
