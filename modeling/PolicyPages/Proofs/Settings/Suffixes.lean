import PolicyPages.Proofs.Settings.Validity

/-!
# Suffixes that are overridden

A rule suffix that is overridden on its own takes the mark of tests along: the mark is put before the new
suffix, and is what is found before it the next time (`testMark_append`). So it does not matter through
which rule suffixes settings have gone, and the first one brings the test suffix back
(`override_forgets_way`). What was granted once is asked for again with the same result, so that to
override settings again changes nothing and reports the same.
-/

namespace PolicyPages

namespace DiscoverySettings

variable {discovery requested : DiscoverySettings} {rule test : Option String} {mark : String}

/-! ### The mark of tests -/

/-- There is always a mark. -/
theorem isEmpty_testMark (discovery : DiscoverySettings) : discovery.testMark.isEmpty = false := by
  unfold testMark
  split
  · split
    · decide
    · rename_i named
      exact Bool.eq_false_iff.2 named
  · decide

/-- What is put before a rule suffix is the mark from then on. -/
theorem testMark_append (named : mark.isEmpty = false) (rule : String) :
    (⟨rule, mark ++ rule⟩ : DiscoverySettings).testMark = mark := by
  simp [testMark, Text.dropEnd?_append, named]

/-- A rule suffix on its own is always taken, and the mark of tests goes before it. -/
theorem override_rule (discovery : DiscoverySettings) (rule : String) :
    discovery.override (some rule) none = ⟨⟨rule, discovery.testMark ++ rule⟩, []⟩ := by
  have fits : Text.endsWith (discovery.testMark ++ rule) rule = true := Text.endsWith_append _ _
  simp only [DiscoverySettings.override, requested?, fits, if_true]

/-! ### Overrides that are repeated -/

/-- What was asked for is asked for again. -/
theorem requested?_again (request : discovery.requested? rule test = some requested) :
    requested.requested? rule test = some requested := by
  cases rule with
  | none =>
    cases test with
    | none => contradiction
    | some test =>
      obtain rfl := Option.some.inj request
      rfl
  | some rule =>
    cases test with
    | none =>
      obtain rfl := Option.some.inj request
      rw [requested?, testMark_append discovery.isEmpty_testMark]
    | some test =>
      obtain rfl := Option.some.inj request
      rfl

theorem override_again (discovery : DiscoverySettings) (rule test : Option String) :
    (discovery.override rule test).value.override rule test = discovery.override rule test := by
  rcases discovery.override_cases rule test with
    ⟨_, _, same⟩ | ⟨requested, request, fits, granted⟩ | ⟨reason, refused⟩
  · simp only [same]
  · rw [granted]
    unfold DiscoverySettings.override
    simp only [requested?_again request, fits, if_true]
  · simp only [refused]

end DiscoverySettings

/-- A level that was taken is taken again. -/
theorem LoggingSettings.override_again (logging : LoggingSettings) (level : Option String) :
    (logging.override level).value.override level = logging.override level := by
  unfold LoggingSettings.override
  cases level with
  | none => rfl
  | some text =>
    dsimp only
    split <;> rfl

/-- The environment sets one of the variables and no other. -/
def Environment.SetsOnly (environment : Environment) (key : OverrideKey) (value : String) : Prop :=
  ∀ other, environment.value? other = if other = key then some value else none

namespace Settings

variable {settings : Settings} {environment : Environment} {path : List Environment}
  {mark rule : String}

/-! ### Settings that are overridden more than once -/

theorem override_again (settings : Settings) (environment : Environment) :
    (settings.override environment).value.override environment = settings.override environment := by
  have logging := settings.logging.override_again (environment.value? .logLevel)
  have discovery := settings.discovery.override_again (environment.value? .ruleSuffix)
    (environment.value? .testSuffix)
  unfold Settings.override
  simp only [logging, discovery]
  cases environment.value? .sourceUrl <;> rfl

/-- The settings after one environment and then the next. -/
def overrideAll (settings : Settings) (path : List Environment) : Settings :=
  path.foldl (fun current environment => (current.override environment).value) settings

/-- The environments set nothing but the rule suffix. -/
def OnlyRename (path : List Environment) : Prop :=
  ∀ environment ∈ path, ∃ rule, environment.SetsOnly .ruleSuffix rule

/-- Settings with another rule suffix, and the mark of tests before it. -/
def renamed (settings : Settings) (rule : String) : Settings :=
  { settings with discovery := ⟨rule, settings.discovery.testMark ++ rule⟩ }

theorem override_of_setsOnly (only : environment.SetsOnly .ruleSuffix rule) (settings : Settings) :
    settings.override environment = ⟨settings.renamed rule, []⟩ := by
  have level : environment.value? .logLevel = none := only .logLevel
  have ruleSuffix : environment.value? .ruleSuffix = some rule := only .ruleSuffix
  have testSuffix : environment.value? .testSuffix = none := only .testSuffix
  have sourceUrl : environment.value? .sourceUrl = none := only .sourceUrl
  unfold Settings.override
  rw [level, ruleSuffix, testSuffix, sourceUrl, DiscoverySettings.override_rule]
  rfl

/-- The mark of tests is all that is kept, so the second rule suffix hides the first. -/
theorem renamed_renamed (settings : Settings) (first last : String) :
    (settings.renamed first).renamed last = settings.renamed last := by
  unfold renamed
  rw [DiscoverySettings.testMark_append settings.discovery.isEmpty_testMark]

/-- Whatever rule suffixes came before, the next one gives the same settings. -/
theorem renamed_overrideAll (only : OnlyRename path) (settings : Settings) (rule : String) :
    (settings.overrideAll path).renamed rule = settings.renamed rule := by
  induction path generalizing settings with
  | nil => rfl
  | cons environment rest ih =>
    obtain ⟨⟨first, sets⟩, later⟩ := List.forall_mem_cons.1 only
    have step : settings.overrideAll (environment :: rest) =
        (settings.renamed first).overrideAll rest := by
      rw [overrideAll, List.foldl_cons, override_of_setsOnly sets]
      rfl
    rw [step, ih later, renamed_renamed]

/-- The rule suffix that the settings have already brings nothing new. -/
theorem renamed_self (named : mark.isEmpty = false)
    (marked : settings.discovery = ⟨rule, mark ++ rule⟩) : settings.renamed rule = settings := by
  unfold renamed
  rw [marked, DiscoverySettings.testMark_append named, ← marked]

/-- A rule suffix that is overridden on its own is taken, the mark of tests goes before it, and nothing
is reported. It hides all rule suffixes that came before it, and the one that the settings began with
brings them back. Whatever is overridden, to do it again changes nothing and reports the same. -/
theorem override_forgets_way :
    (∀ (settings : Settings) (environment : Environment) (rule : String),
      environment.SetsOnly .ruleSuffix rule →
      settings.override environment = ⟨settings.renamed rule, []⟩) ∧
    (∀ (settings : Settings) (path : List Environment) (last : Environment) (rule : String),
      OnlyRename path → last.SetsOnly .ruleSuffix rule →
      (settings.overrideAll path).override last = settings.override last) ∧
    (∀ (settings : Settings) (path : List Environment) (back : Environment) (mark rule : String),
      mark.isEmpty = false → settings.discovery = ⟨rule, mark ++ rule⟩ →
      OnlyRename path → back.SetsOnly .ruleSuffix rule →
      (settings.overrideAll path).override back = ⟨settings, []⟩) ∧
    ∀ (settings : Settings) (environment : Environment),
      (settings.override environment).value.override environment =
        settings.override environment := by
  refine ⟨?_, ?_, ?_, override_again⟩
  · intro settings environment rule only
    exact override_of_setsOnly only settings
  · intro settings path last rule only sets
    rw [override_of_setsOnly sets, override_of_setsOnly sets, renamed_overrideAll only]
  · intro settings path back mark rule named marked only sets
    rw [override_of_setsOnly sets, renamed_overrideAll only, renamed_self named marked]

/-- The environment with one variable that says something sets this variable only. -/
theorem setsOnly_sampleEnvironment (key : OverrideKey) {value : String}
    (named : value.isEmpty = false) : (sampleEnvironment [(key.name, value)]).SetsOnly key value := by
  intro other
  unfold Environment.value? sampleEnvironment
  by_cases same : other = key
  · simp [same, named]
  · have apart : (other.name == key.name) = false := by
      revert same
      cases other <;> cases key <;> decide
    simp [List.lookup_cons, same, apart]

/-- The suffixes hold each other, and still the way back leads to the ones at the beginning. -/
theorem override_forgets_way_sample :
    let settings : Settings := ⟨⟨"info"⟩, ⟨"a", "aa"⟩, ⟨none⟩⟩
    let rename (rule : String) := sampleEnvironment [(OverrideKey.ruleSuffix.name, rule)]
    let path := [rename "aa", rename ".a"]
    "a".isEmpty = false ∧ settings.discovery = ⟨"a", "a" ++ "a"⟩ ∧ OnlyRename path ∧
      (rename "a").SetsOnly .ruleSuffix "a" ∧
      settings.override (rename "aa") = ⟨⟨⟨"info"⟩, ⟨"aa", "aaa"⟩, ⟨none⟩⟩, []⟩ ∧
      (settings.overrideAll path).override (rename "a") = settings.override (rename "a") ∧
      (settings.overrideAll path).override (rename "a") = ⟨settings, []⟩ ∧
      (settings.override (rename "aa")).value.override (rename "aa") =
        settings.override (rename "aa") := by
  intro settings rename path
  have sets (rule : String) (named : rule.isEmpty = false) :
      (rename rule).SetsOnly .ruleSuffix rule := setsOnly_sampleEnvironment .ruleSuffix named
  have only : OnlyRename path := by
    intro environment mem
    rcases List.mem_pair.1 mem with rfl | rfl
    · exact ⟨"aa", sets "aa" (by decide)⟩
    · exact ⟨".a", sets ".a" (by decide)⟩
  obtain ⟨takes, forgets, returns, again⟩ := override_forgets_way
  have back := sets "a" (by decide)
  refine ⟨by decide, by decide, only, back, ?_, forgets settings path _ "a" only back,
    returns settings path _ "a" "a" (by decide) (by decide) only back, again settings _⟩
  rw [takes settings _ "aa" (sets "aa" (by decide))]
  have mark : settings.discovery.testMark = "a" := by decide +kernel
  rw [renamed, mark]
  rfl

end Settings

end PolicyPages
