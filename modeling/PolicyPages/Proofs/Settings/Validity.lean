import PolicyPages.Settings.Session
import PolicyPages.Proofs.Sequencing

/-!
# Settings that stay valid

Settings are valid if their suffixes fit together and their level exists (`validate_eq_ok_iff`).
Each kind of override keeps its part of that, whatever the environment holds, so overrides keep valid
settings valid (`override_keeps_valid`). What an override does to suffixes is said once, in
`DiscoverySettings.override_cases`.
-/

namespace PolicyPages

open Log (Level)

/-! ### What is checked -/

/-- The rule suffix says something, and the test suffix ends in it. -/
structure DiscoverySettings.Fits (discovery : DiscoverySettings) : Prop where
  named : discovery.ruleSuffix.isEmpty = false
  ends : Text.endsWith discovery.testSuffix discovery.ruleSuffix = true

/-- The suffixes fit together, and the level exists. -/
structure Settings.IsValid (settings : Settings) : Prop where
  discovery : settings.discovery.Fits
  level : isLogLevel settings.logging.level = true

theorem Settings.validate_eq_ok_iff {settings : Settings} :
    settings.validate = .ok () ↔ settings.IsValid := by
  unfold validate
  constructor
  · intro accepted
    dsimp only at accepted
    split_ifs at accepted with empty mismatch unknown
    exact ⟨⟨by simpa using empty, by simpa using mismatch⟩, by simpa using unknown⟩
  · rintro ⟨⟨named, ends⟩, level⟩
    simp [named, ends, level]

/-! ### What overrides keep -/

theorem Log.Level.lowercase_lowercase (text : String) :
    lowercase (lowercase text) = lowercase text := by
  rw [lowercase, lowercase, String.toList_ofList, List.map_map]
  refine congrArg String.ofList (List.map_congr_left fun c _ => ?_)
  delta Function.comp Char.toLower
  grind

/-- Capitals do not matter in the name of a level. -/
theorem Log.Level.ofName?_lowercase (name : String) : ofName? (lowercase name) = ofName? name := by
  simp only [ofName?, lowercase_lowercase]

/-- A variable that counts as set says something. -/
theorem Environment.isEmpty_of_value? {environment : Environment} {key : OverrideKey}
    {value : String} (set : environment.value? key = some value) : value.isEmpty = false := by
  simpa using (Option.filter_eq_some_iff.1 set).2

theorem LoggingSettings.isLogLevel_override {logging : LoggingSettings}
    (known : isLogLevel logging.level = true) (level : Option String) :
    isLogLevel (logging.override level).value.level = true := by
  unfold override
  cases level with
  | none => exact known
  | some text =>
    dsimp only
    split
    · rename_i found
      rwa [isLogLevel, Level.ofName?_lowercase]
    · exact known

namespace DiscoverySettings

variable {discovery requested : DiscoverySettings} {rule test : Option String}

theorem requested?_eq_none_iff : discovery.requested? rule test = none ↔ rule = none ∧ test = none := by
  cases rule <;> cases test <;> simp [requested?]

/-- Suffixes stay as they are if none is set; otherwise they become what is asked for if that fits
together, and if not they stay and all that was set is reported. -/
theorem override_cases (discovery : DiscoverySettings) (rule test : Option String) :
    (rule = none ∧ test = none ∧ discovery.override rule test = ⟨discovery, []⟩) ∨
      (∃ requested, discovery.requested? rule test = some requested ∧
        Text.endsWith requested.testSuffix requested.ruleSuffix = true ∧
        discovery.override rule test = ⟨requested, []⟩) ∨
      ∃ reason, discovery.override rule test = ⟨discovery, ignoredSuffixes rule test reason⟩ := by
  unfold DiscoverySettings.override
  cases request : discovery.requested? rule test with
  | none =>
    obtain ⟨rfl, rfl⟩ := requested?_eq_none_iff.1 request
    exact .inl ⟨rfl, rfl, rfl⟩
  | some requested =>
    dsimp only
    split
    · rename_i fits
      exact .inr (.inl ⟨requested, rfl, fits, rfl⟩)
    · exact .inr (.inr ⟨_, rfl⟩)

/-- A suffix that is set is asked for, and with it the one before, or a test suffix with the mark. -/
theorem eq_of_requested? (request : discovery.requested? rule test = some requested) :
    requested.ruleSuffix = rule.getD discovery.ruleSuffix ∧
      requested.testSuffix = test.getD (discovery.testMark ++ requested.ruleSuffix) := by
  cases rule with
  | none =>
    cases test with
    | none => contradiction
    | some test =>
      obtain rfl := Option.some.inj request
      exact ⟨rfl, rfl⟩
  | some rule => cases test <;> obtain rfl := Option.some.inj request <;> exact ⟨rfl, rfl⟩

/-- The rule suffix that is asked for says something, be it the one that was set or the one before. -/
theorem named_of_requested? (named : discovery.ruleSuffix.isEmpty = false)
    (ruleNamed : ∀ value, rule = some value → value.isEmpty = false)
    (request : discovery.requested? rule test = some requested) :
    requested.ruleSuffix.isEmpty = false := by
  rw [(eq_of_requested? request).1]
  cases rule with
  | none => exact named
  | some rule => exact ruleNamed rule rfl

/-- Suffixes that fit together are replaced by such suffixes, or not at all. -/
theorem Fits.override (fits : discovery.Fits)
    (ruleNamed : ∀ value, rule = some value → value.isEmpty = false) :
    (discovery.override rule test).value.Fits := by
  rcases discovery.override_cases rule test with
    ⟨_, _, same⟩ | ⟨requested, request, ends, granted⟩ | ⟨reason, refused⟩
  · rw [same]
    exact fits
  · rw [granted]
    exact ⟨named_of_requested? fits.named ruleNamed request, ends⟩
  · rw [refused]
    exact fits

end DiscoverySettings

/-- An environment that overrides nothing. -/
def Environment.SetsNothing (environment : Environment) : Prop :=
  ∀ key, environment.value? key = none

namespace Settings

variable {settings : Settings} {environment : Environment}

theorem IsValid.override (valid : settings.IsValid) (environment : Environment) :
    (settings.override environment).value.IsValid where
  discovery := valid.discovery.override fun _ set => Environment.isEmpty_of_value? set
  level := LoggingSettings.isLogLevel_override valid.level _

theorem override_of_setsNothing (nothing : environment.SetsNothing) (settings : Settings) :
    settings.override environment = ⟨settings, []⟩ := by
  unfold Settings.override
  rw [nothing .logLevel, nothing .ruleSuffix, nothing .testSuffix, nothing .sourceUrl]
  rfl

/-! ### What is loaded -/

/-- Settings are loaded if those of the file are valid after the overrides. -/
theorem load_eq_ok_iff {file : SettingsFile} {loaded : Overridden Settings} :
    load file environment = .ok loaded ↔
      ∃ base, file.settings = .ok base ∧ loaded = base.override environment ∧
        loaded.value.IsValid := by
  unfold load
  rw [bind_eq_ok_iff]
  refine exists_congr fun base => and_congr_right fun _ => ?_
  dsimp only
  cases checked : (base.override environment).value.validate with
  | ok _ =>
    have valid := validate_eq_ok_iff.1 checked
    constructor
    · rintro ⟨⟩
      exact ⟨rfl, valid⟩
    · rintro ⟨rfl, -⟩
      rfl
  | error fault =>
    refine ⟨nofun, ?_⟩
    rintro ⟨rfl, valid⟩
    rw [validate_eq_ok_iff.2 valid] at checked
    contradiction

/-- A session loads what its files hold at the path, and changes none of them. -/
theorem exists_outcome_loadFrom (path : Path) (before : Session) :
    ∃ events, ∀ environment, (loadFrom path environment).outcome before =
      (load (fileIn before.files path) environment, ⟨before.files, events⟩) := by
  let shown := "\"" ++ path.display ++ "\""
  let event : Log.Event :=
    if before.files.holds path then .settingsFound shown else .settingsMissing shown
  refine ⟨before.events ++ [event], fun environment => ?_⟩
  unfold loadFrom
  rw [Action.outcome_bind, Action.outcome_files]
  dsimp only
  rw [Action.outcome_bind, Action.outcome_log]
  dsimp only
  rw [Action.outcome_ofResult]

theorem yields_loadFrom_iff {path : Path} {before : Session} {loaded : Overridden Settings} :
    (∃ after, (loadFrom path environment).Yields before loaded after) ↔
      load (fileIn before.files path) environment = .ok loaded := by
  obtain ⟨events, outcome⟩ := exists_outcome_loadFrom path before
  simp only [Action.Yields, outcome, Prod.mk.injEq, exists_and_left, exists_eq', and_true]

/-- Overrides keep valid settings valid. So no environment keeps settings from being loaded that can be
loaded without one, and all settings that are loaded are valid. -/
theorem override_keeps_valid :
    (∀ (settings : Settings) (environment : Environment), settings.validate = .ok () →
      (settings.override environment).value.validate = .ok ()) ∧
    (∀ (path : Path) (session : Session) (unset environment : Environment), unset.SetsNothing →
      (∃ loaded after, (loadFrom path unset).Yields session loaded after) →
      ∃ loaded after, (loadFrom path environment).Yields session loaded after) ∧
    ∀ (path : Path) (environment : Environment) (session after : Session)
      (loaded : Overridden Settings), (loadFrom path environment).Yields session loaded after →
      loaded.value.validate = .ok () := by
  refine ⟨fun settings environment accepted => ?_, ?_, ?_⟩
  · exact validate_eq_ok_iff.2 ((validate_eq_ok_iff.1 accepted).override environment)
  · rintro path session unset environment nothing ⟨loaded, after, yields⟩
    obtain ⟨base, read, rfl, valid⟩ := load_eq_ok_iff.1 (yields_loadFrom_iff.1 ⟨after, yields⟩)
    rw [override_of_setsNothing nothing] at valid
    exact ⟨_, yields_loadFrom_iff.2
      (load_eq_ok_iff.2 ⟨base, read, rfl, valid.override environment⟩)⟩
  · intro path environment session after loaded yields
    obtain ⟨_, _, _, valid⟩ := load_eq_ok_iff.1 (yields_loadFrom_iff.1 ⟨after, yields⟩)
    exact validate_eq_ok_iff.2 valid

/-- A tree of files that holds a settings file. -/
def sampleFiles (content : String) : Files.Tree :=
  ⟨[(defaultPath.segments, .file (.text content))], []⟩

/-- The environment that sets these variables. -/
def sampleEnvironment (set : List (String × String)) : Environment :=
  fun name => set.lookup name

/-- The rule suffix and the level are overridden, and the mark of tests is that of the file. -/
theorem override_keeps_valid_sample :
    let session := Session.start
      (sampleFiles "\x7b\"discovery\": \x7b\"testSuffix\": \"_spec.rego\"\x7d\x7d")
    let environment := sampleEnvironment
      [("POLICYDOC_RULE_SUFFIX", ".rg"), ("POLICYDOC_LOG_LEVEL", "INFO")]
    Settings.default.validate = .ok () ∧
      (Settings.default.override environment).value = ⟨⟨"info"⟩, ⟨".rg", "_test.rg"⟩, ⟨none⟩⟩ ∧
      (Settings.default.override environment).value.validate = .ok () ∧
      (sampleEnvironment []).SetsNothing ∧
      (∃ loaded after, (loadFrom defaultPath (sampleEnvironment [])).Yields session loaded after) ∧
      (∃ loaded after, (loadFrom defaultPath environment).Yields session loaded after) ∧
      ∃ loaded after, (loadFrom defaultPath environment).Yields session loaded after ∧
        loaded.value = ⟨⟨"info"⟩, ⟨".rg", "_spec.rg"⟩, ⟨none⟩⟩ ∧ loaded.value.validate = .ok () := by
  intro session environment
  have evaluated : Settings.default.validate = .ok () ∧
      (Settings.default.override environment).value = ⟨⟨"info"⟩, ⟨".rg", "_test.rg"⟩, ⟨none⟩⟩ ∧
      (loadFrom defaultPath (sampleEnvironment [])).succeedsWith session (fun _ _ => true) = true ∧
      (loadFrom defaultPath environment).succeedsWith session (fun loaded _ =>
        loaded.value = ⟨⟨"info"⟩, ⟨".rg", "_spec.rg"⟩, ⟨none⟩⟩) = true := by
    decide +kernel
  obtain ⟨accepted, overridden, bare, full⟩ := evaluated
  have nothing : (sampleEnvironment []).SetsNothing := fun _ => rfl
  obtain ⟨keeps, succeeds, valid⟩ := override_keeps_valid
  obtain ⟨loaded, after, yields, -⟩ := Action.exists_yields_of_succeedsWith bare
  obtain ⟨other, last, yieldsFull, same⟩ := Action.exists_yields_of_succeedsWith full
  exact ⟨accepted, overridden, keeps _ _ accepted, nothing, ⟨loaded, after, yields⟩,
    succeeds _ _ _ environment nothing ⟨loaded, after, yields⟩,
    other, last, yieldsFull, of_decide_eq_true same, valid _ _ _ _ _ yieldsFull⟩

end Settings

end PolicyPages
