import PolicyPages.Session
import PolicyPages.Settings.Loading

/-!
# Loading settings in a session
-/

namespace PolicyPages.Settings

open Files (Tree)

/-- What a tree holds of a settings file. -/
def fileIn (tree : Tree) (path : Path) : SettingsFile :=
  if tree.holds path then
    match tree.read path with
    | .ok content => .text content
    | .error error => .unreadable error
  else .missing

/-- The settings file that is used when none is named. -/
def defaultPath : Path := .ofText ".policydoc.json"

/-- Loads settings from a file, if it is there, and from the environment. -/
def loadFrom (path : Path) (environment : Environment) :
    Action SettingsError (Overridden Settings) := do
  let tree ← Action.files
  let shown := "\"" ++ path.display ++ "\""
  Action.log [if tree.holds path then .settingsFound shown else .settingsMissing shown]
  Action.ofResult (Settings.load (fileIn tree path) environment)

end PolicyPages.Settings
