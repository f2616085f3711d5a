import PolicyPages.Files.Volume
import PolicyPages.Log.Event

/-!
# Sessions

What a run works on: a tree of files, and the events so far. An action may change the files and add
events also if it fails later on. Files are changed on a volume; a volume that is not named is faultless.
-/

namespace PolicyPages

open Files (Tree Volume)

/-- A tree of files and the events so far. -/
structure Session where
  files : Tree
  events : List Log.Event

/-- A session that begins with a tree. -/
def Session.start (files : Tree) : Session := ⟨files, []⟩

/-- An action in a session, which may fail. -/
abbrev Action (ε α : Type) := ExceptT ε (StateM Session) α

namespace Action

variable {ε α : Type}

/-- Adds events. -/
def log (events : List Log.Event) : Action ε Unit :=
  modify fun session => { session with events := session.events ++ events }

/-- The files as they are. -/
def files : Action ε Tree := do
  return (← get).files

/-- The value of a result, or its failure. -/
def ofResult : Except ε α → Action ε α
  | .ok value => pure value
  | .error failure => throw failure

/-- Changes the files. What has become of them stays also if it fails. -/
def change (failure : Files.Error → ε) (act : Tree → Except Files.Error Unit × Tree) :
    Action ε Unit := do
  let (result, tree) := act (← files)
  modify fun session => { session with files := tree }
  match result with
  | .ok () => return ()
  | .error error => throw (failure error)

/-- Makes a directory and what is missing above it on a volume. -/
def createDirectoriesOn (volume : Volume) (failure : Files.Error → ε) (path : Path) :
    Action ε Unit :=
  change failure fun tree => volume.createDirectories tree path

/-- Writes a text to a file on a volume. -/
def writeOn (volume : Volume) (failure : Files.Error → ε) (path : Path) (text : String) :
    Action ε Unit :=
  change failure fun tree => volume.write tree path (.text text)

/-- Makes a directory and what is missing above it. -/
def createDirectories (failure : Files.Error → ε) (path : Path) : Action ε Unit :=
  createDirectoriesOn .faultless failure path

/-- Writes a text to a file. -/
def write (failure : Files.Error → ε) (path : Path) (text : String) : Action ε Unit :=
  writeOn .faultless failure path text

/-- The outcome of an action in a session, and the session after it. -/
def outcome (action : Action ε α) (session : Session) : Except ε α × Session :=
  (ExceptT.run action).run session

end Action

end PolicyPages
