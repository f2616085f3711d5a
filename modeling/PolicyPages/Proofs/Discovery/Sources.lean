import PolicyPages.Proofs.Discovery.Order
import PolicyPages.Proofs.Settings.Suffixes

/-!
# Which names the suffixes let through

Settings are accepted if the test suffix ends in the rule suffix. Then the two suffixes split the names
that end in the rule suffix into sources and tests (`validate_splits_names`). The suffixes may be the same,
though, and then each rule is a test: no name is that of a source (`not_every_validated_source`), and no
tree has a module. With different suffixes there are sources, and there are files that may be called so
unless no file may end in the rule suffix at all.

A rule suffix that is overridden on its own keeps a mark of tests, so it never makes the suffixes the same
(`override_rule_apart`).
-/

namespace PolicyPages

open Files (IsFileName Tree)

/-- A text that may be the name of a file. -/
def IsFileText (name : String) : Prop :=
  IsFileName (Path.ofText name).units

namespace DiscoverySettings

/-- How suffixes split names. A name with the test suffix has the rule suffix and is no source; a name with
the rule suffix is a source or has the test suffix, and not both. There are sources just if the suffixes
differ, and files that are sources just if, besides, files may end in the rule suffix: then some tree
has a module, and otherwise none has. -/
structure SplitsNames (discovery : DiscoverySettings) : Prop where
  tests : ∀ name, Text.endsWith name discovery.testSuffix = true →
    Text.endsWith name discovery.ruleSuffix = true ∧ isRuleSource discovery name = false
  rules : ∀ name, Text.endsWith name discovery.ruleSuffix = true →
    isRuleSource discovery name = !Text.endsWith name discovery.testSuffix
  source_iff : (∃ name, isRuleSource discovery name = true) ↔
    discovery.testSuffix ≠ discovery.ruleSuffix
  file_iff : (∃ name, IsFileText name ∧ isRuleSource discovery name = true) ↔
    discovery.testSuffix ≠ discovery.ruleSuffix ∧
      ∃ name, IsFileText name ∧ Text.endsWith name discovery.ruleSuffix = true
  found : (∃ name, IsFileText name ∧ isRuleSource discovery name = true) →
    ∃ tree root found, tree.Lawful ∧ Discovery.modules tree discovery [root] = .ok found ∧ found ≠ []
  nothing : discovery.testSuffix = discovery.ruleSuffix →
    ∀ tree roots found, Discovery.modules tree discovery roots = .ok found → found = []

section

variable {discovery : DiscoverySettings} {name file : String}

/-! ### Sources and tests -/

theorem isRuleSource_of_test (isTest : Text.endsWith name discovery.testSuffix = true) :
    isRuleSource discovery name = false := by
  rw [isRuleSource, isTest, Bool.not_true, Bool.and_false]

theorem Fits.ruled_of_test (fits : discovery.Fits)
    (isTest : Text.endsWith name discovery.testSuffix = true) :
    Text.endsWith name discovery.ruleSuffix = true :=
  Text.endsWith_iff.2 ((Text.endsWith_iff.1 fits.ends).trans (Text.endsWith_iff.1 isTest))

theorem isRuleSource_of_ruled (ruled : Text.endsWith name discovery.ruleSuffix = true) :
    isRuleSource discovery name = !Text.endsWith name discovery.testSuffix := by
  rw [isRuleSource, ruled, Bool.true_and]

/-- If the suffixes are the same, each name with the rule suffix is that of a test. -/
theorem isRuleSource_of_same (same : discovery.testSuffix = discovery.ruleSuffix) (name : String) :
    isRuleSource discovery name = false := by
  rw [isRuleSource, same, Bool.and_not_self]

theorem ne_of_isRuleSource (isSource : isRuleSource discovery name = true) :
    discovery.testSuffix ≠ discovery.ruleSuffix := by
  intro same
  rw [isRuleSource_of_same same] at isSource
  contradiction

/-- A test suffix that is not the rule suffix is longer. -/
theorem Fits.not_suffix (fits : discovery.Fits)
    (apart : discovery.testSuffix ≠ discovery.ruleSuffix) :
    ¬ discovery.testSuffix.toList <:+ discovery.ruleSuffix.toList := fun within =>
  apart (String.toList_inj.1
    (within.eq_of_length_le (Text.endsWith_iff.1 fits.ends).length_le))

/-- The rule suffix is the name of a source itself. -/
theorem Fits.isRuleSource_ruleSuffix (fits : discovery.Fits)
    (apart : discovery.testSuffix ≠ discovery.ruleSuffix) :
    isRuleSource discovery discovery.ruleSuffix = true :=
  Discovery.isRuleSource_iff.2 ⟨List.suffix_refl _, fits.not_suffix apart⟩

/-- With a character in front, the rule suffix is the name of a source unless this is the test suffix. -/
theorem Fits.isRuleSource_singleton_append (fits : discovery.Fits)
    (apart : discovery.testSuffix ≠ discovery.ruleSuffix) {c : Char}
    (other : discovery.testSuffix ≠ String.singleton c ++ discovery.ruleSuffix) :
    isRuleSource discovery (String.singleton c ++ discovery.ruleSuffix) = true := by
  have written : (String.singleton c ++ discovery.ruleSuffix).toList =
      c :: discovery.ruleSuffix.toList := by simp
  refine Discovery.isRuleSource_iff.2 ⟨written ▸ List.suffix_cons _ _, fun isTest => ?_⟩
  rw [written, List.suffix_cons_iff] at isTest
  rcases isTest with whole | within
  · exact other (String.toList_inj.1 (whole.trans written.symm))
  · exact fits.not_suffix apart within

/-- A rule suffix on its own never makes the suffixes the same. -/
theorem override_rule_apart (discovery : DiscoverySettings) (rule : String) :
    (discovery.override (some rule) none).value.testSuffix ≠
      (discovery.override (some rule) none).value.ruleSuffix := by
  rw [override_rule]
  intro (same : discovery.testMark ++ rule = rule)
  have unmarked : discovery.testMark = "" := by
    have lengths := congrArg String.length same
    rw [String.length_append] at lengths
    exact String.length_eq_zero_iff.1 (by omega)
  have marked := discovery.isEmpty_testMark
  rw [unmarked] at marked
  contradiction

/-! ### Files -/

/-- The end of a file's name is a file's name, unless it leads to a directory or is empty. -/
theorem isFileText_of_suffix (isFile : IsFileText file) (named : name ≠ "")
    (leads : name ∉ [".", ".."]) (ends : name.toList <:+ file.toList) : IsFileText name := by
  obtain ⟨front, whole⟩ := ends
  have units : (Path.ofText file).units =
      front.map Text.Unit8.char ++ (Path.ofText name).units := by
    rw [Path.ofText, ← whole, List.map_append, Path.ofText]
  have other {text : String} (apart : name ≠ text) :
      (Path.ofText name).units ≠ (Path.ofText text).units := fun same =>
    apart (by rw [← Path.display_ofText name, Path.display, same, ← Path.display,
      Path.display_ofText])
  simp only [List.mem_cons, List.not_mem_nil, or_false, not_or] at leads
  obtain ⟨⟨-, -, short⟩, noSeparator, noNul⟩ := Files.isFileName_iff.1 isFile
  rw [units] at short noSeparator noNul
  refine Files.isFileName_iff.2 ⟨⟨?_, other leads.2, ?_⟩, ?_, ?_⟩
  · rw [Path.leads, Bool.and_eq_true, decide_eq_true_eq, decide_eq_true_eq]
    exact ⟨other named, other leads.1⟩
  · rw [FileName.bytes, List.flatMap_append, List.length_append] at short
    exact (Nat.le_add_left _ _).trans short
  · exact fun mem => noSeparator (List.mem_append_right _ mem)
  · exact fun mem => noNul (List.mem_append_right _ mem)

/-- If the suffixes differ and files may end in the rule suffix, files may be sources. -/
theorem Fits.exists_source_file (fits : discovery.Fits)
    (apart : discovery.testSuffix ≠ discovery.ruleSuffix) (isFile : IsFileText file)
    (ruled : Text.endsWith file discovery.ruleSuffix = true) :
    ∃ name, IsFileText name ∧ isRuleSource discovery name = true := by
  by_cases leads : discovery.ruleSuffix ∈ [".", ".."]
  · -- At most one of two names is the test suffix.
    have allowed : ∀ c ∈ ['a', 'b'], IsFileText (String.singleton c ++ discovery.ruleSuffix) := by
      intro c mem
      rw [IsFileText, Path.ofText, String.toList_append, String.toList_singleton]
      simp only [List.mem_cons, List.not_mem_nil, or_false] at leads mem
      rcases leads with suffix | suffix <;> rcases mem with rfl | rfl <;> rw [suffix] <;> decide
    by_cases isTest : discovery.testSuffix = String.singleton 'a' ++ discovery.ruleSuffix
    · have other : discovery.testSuffix ≠ String.singleton 'b' ++ discovery.ruleSuffix := by
        rw [isTest]
        intro same
        exact absurd ((String.append_left_inj _).1 same) (by decide)
      exact ⟨_, allowed 'b' (by decide), fits.isRuleSource_singleton_append apart other⟩
    · exact ⟨_, allowed 'a' (by decide), fits.isRuleSource_singleton_append apart isTest⟩
  · have named : discovery.ruleSuffix ≠ "" := by
      intro empty
      have := fits.named
      simp [empty] at this
    exact ⟨_, isFileText_of_suffix isFile named leads (Text.endsWith_iff.1 ruled),
      fits.isRuleSource_ruleSuffix apart⟩

end

end DiscoverySettings

namespace Discovery

variable {tree : Tree} {settings : DiscoverySettings} {roots : List Path} {found : List FoundModule}

/-- Where no name is that of a source, nothing is found. -/
theorem eq_nil_of_modules (none : ∀ name, isRuleSource settings name = false)
    (succeeds : modules tree settings roots = .ok found) : found = [] := by
  obtain ⟨-, rfl⟩ := modules_eq_ok_iff.1 succeeds
  rw [List.flatMap_eq_nil_iff]
  intro root _
  rw [modulesBelow, List.filterMap_eq_nil_iff]
  intro visit _
  rw [Option.eq_none_iff_forall_ne_some]
  intro module isModule
  obtain ⟨-, ⟨name, -, isSource⟩, -⟩ := moduleAt?_eq_some_iff.1 isModule
  rw [none name] at isSource
  contradiction

/-- A directory with one file in it. -/
def oneFile (name : String) : Tree where
  entries := [([(Path.ofText name).units], .file (.text ""))]
  workingDirectory := []

theorem lawful_oneFile {name : String} (isFile : IsFileText name) : (oneFile name).Lawful where
  closed := Tree.closed_of_entries (by simp [oneFile, Tree.isDirectory])
  names := by
    intro entry mem name' mem'
    obtain rfl := List.mem_singleton.1 mem
    rwa [List.mem_singleton.1 mem']
  distinct := List.nodup_singleton _
  workingDirectory := rfl

theorem find_oneFile (name : String) :
    (oneFile name).find true (.ofText ".") = .ok ([], .directory) :=
  rfl

theorem directoriesFit_oneFile (name : String) : DirectoriesFit (oneFile name) (.ofText ".") := by
  intro top below leads isDirectory
  obtain ⟨rfl, -⟩ := Prod.mk.inj (Except.ok.inj ((find_oneFile name).symm.trans leads))
  rw [List.nil_append, Tree.isDirectory_iff] at isDirectory
  have atRoot : below = [] := by
    by_contra inside
    have isEntry := Tree.mem_entries_of_at? inside isDirectory
    simp [oneFile] at isEntry
  rw [atRoot]
  decide

/-- The file is found if its name is that of a source. -/
theorem exists_modules_oneFile {name : String} (isFile : IsFileText name)
    (isSource : isRuleSource settings name = true) :
    ∃ found, modules (oneFile name) settings [.ofText "."] = .ok found ∧ found ≠ [] := by
  have directories : ∀ root ∈ [Path.ofText "."], (oneFile name).holdsDirectory root = true :=
    List.forall_mem_singleton.2 (Tree.holdsDirectory_iff_find.2 ⟨_, find_oneFile name⟩)
  obtain ⟨parts, succeeds, each⟩ := exists_listsModules (lawful_oneFile isFile) rfl directories
    (List.forall_mem_singleton.2 (directoriesFit_oneFile name))
  obtain ⟨part, mem, lists⟩ := exists_mem_of_forall₂ each List.mem_cons_self
  have isModule : IsRuleModule (oneFile name) settings (.ofText ".")
      (Path.ofComponents [.name (Path.ofText name).units]) :=
    ⟨[], [], name, .text "", find_oneFile name, by simp [oneFile, Tree.at?], rfl,
      isRuleSource_iff.1 isSource⟩
  refine ⟨_, succeeds, ?_⟩
  exact List.ne_nil_of_mem (List.mem_flatten.2 ⟨part, mem, (lists.mem_iff _).2 isModule⟩)

end Discovery

/-- Settings that are accepted split names into sources and tests. -/
theorem Settings.validate_splits_names {settings : Settings} (accepted : settings.validate = .ok ()) :
    settings.discovery.SplitsNames := by
  have fits : settings.discovery.Fits := (validate_eq_ok_iff.1 accepted).discovery
  constructor
  case tests => exact fun name isTest =>
    ⟨fits.ruled_of_test isTest, DiscoverySettings.isRuleSource_of_test isTest⟩
  case rules => exact fun name ruled => DiscoverySettings.isRuleSource_of_ruled ruled
  case source_iff =>
    exact ⟨fun ⟨_, isSource⟩ => DiscoverySettings.ne_of_isRuleSource isSource,
      fun apart => ⟨_, fits.isRuleSource_ruleSuffix apart⟩⟩
  case file_iff =>
    constructor
    · rintro ⟨name, isFile, isSource⟩
      exact ⟨DiscoverySettings.ne_of_isRuleSource isSource, name, isFile,
        (Bool.and_eq_true_iff.1 isSource).1⟩
    · rintro ⟨apart, file, isFile, ruled⟩
      exact fits.exists_source_file apart isFile ruled
  case found =>
    rintro ⟨name, isFile, isSource⟩
    obtain ⟨found, succeeds, nonempty⟩ := Discovery.exists_modules_oneFile isFile isSource
    exact ⟨_, _, found, Discovery.lawful_oneFile isFile, succeeds, nonempty⟩
  case nothing =>
    intro same tree roots found succeeds
    exact Discovery.eq_nil_of_modules (DiscoverySettings.isRuleSource_of_same same) succeeds

theorem Settings.validate_splits_names_default :
    Settings.default.validate = .ok () ∧ Settings.default.discovery.SplitsNames ∧
      isRuleSource Settings.default.discovery "a.rego" = true ∧
      isRuleSource Settings.default.discovery "a_test.rego" = false := by
  have accepted : Settings.default.validate = .ok () := by decide
  exact ⟨accepted, Settings.validate_splits_names accepted, by decide, by decide⟩

/-- Settings with one suffix for rules and tests are accepted, but let no name through. -/
theorem not_every_validated_source :
    ¬ ∀ settings : Settings, settings.validate = .ok () →
      ∃ name, isRuleSource settings.discovery name = true := by
  intro all
  let settings : Settings := { Settings.default with discovery := ⟨".rego", ".rego"⟩ }
  obtain ⟨name, isSource⟩ := all settings (by decide)
  exact DiscoverySettings.ne_of_isRuleSource isSource rfl

end PolicyPages
