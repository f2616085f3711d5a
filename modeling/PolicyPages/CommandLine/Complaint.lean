import PolicyPages.Failure
import PolicyPages.Settings

/-!
# How a failed run is reported

What could not be done stands first, and what caused it after that, from the outside in. Several causes
are numbered. The lines of a cause after its first are indented like it.
-/

namespace PolicyPages.CommandLine

/-- What could not be done, and its causes from the outside in. -/
structure Complaint where
  what : String
  causes : List String
deriving DecidableEq, Repr

namespace Complaint

/-- The text of a cause behind a mark, its other lines behind as much space. -/
def marked (mark : List Char) (cause : String) : List Char :=
  mark ++ cause.toList.flatMap fun c =>
    if c = '\n' then '\n' :: List.replicate mark.length ' ' else [c]

/-- The mark of a cause that is the only one. -/
def indent : List Char := List.replicate 4 ' '

/-- The mark of a numbered cause. -/
def number (n : Nat) : List Char :=
  let digits := (toString n).toList
  List.replicate (5 - digits.length) ' ' ++ digits ++ [':', ' ']

/-- The lines of numbered causes, each after a line end. -/
def numberedFrom : (n : Nat) → List String → List Char
  | _, [] => []
  | n, cause :: rest => '\n' :: marked (number n) cause ++ numberedFrom (n + 1) rest

/-- The lines of all causes, each after a line end. -/
def causeLines : List String → List Char
  | [cause] => '\n' :: marked indent cause
  | causes => numberedFrom 0 causes

/-- The text of a complaint. -/
def text (complaint : Complaint) : String :=
  "Error: " ++ complaint.what ++
    (if complaint.causes.isEmpty then ""
      else "\n\nCaused by:" ++ String.ofList (causeLines complaint.causes)) ++ "\n"

/-- The settings file that was named is not there. -/
def noSettingsFile (path : Path) : Complaint :=
  ⟨"settings file not found: " ++ path.display, []⟩

/-- The settings cannot be loaded from a file that was named, or from the one that is used
otherwise. -/
def settings (path : Option Path) (error : SettingsError) : Complaint :=
  ⟨"failed to load settings" ++
      (match path with
        | some path => " from " ++ path.display
        | none => ""),
    error.causes⟩

/-- The directory of the pages cannot be made. -/
def outDirectory (path : Path) (error : Files.Error) : Complaint :=
  ⟨"failed to create output directory " ++ path.display, [error.message]⟩

/-- The documentation cannot be generated. -/
def generation (failure : Failure) : Complaint :=
  ⟨"documentation generation failed", failure.causes⟩

end Complaint

end PolicyPages.CommandLine
