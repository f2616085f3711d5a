import PolicyPages.Path

/-!
# What may go wrong with files

The reasons for which the file system refuses an operation, with their texts; and the reasons for
which a walk through a directory stops.
-/

namespace PolicyPages.Files

/-- Why an operation on a file is refused. -/
inductive Error where
  | notFound
  | alreadyExists
  | notDirectory
  | isDirectory
  | nameTooLong
  | tooManyLinks
  /-- The content is no text. -/
  | notText
  /-- A path holds the character NUL. -/
  | nulInName
  /-- There is no room left. -/
  | noSpace
deriving DecidableEq, Repr

/-- The text of a refusal; those by the operating system have its number. -/
def Error.message : Error → String
  | notFound => "No such file or directory (os error 2)"
  | alreadyExists => "File exists (os error 17)"
  | notDirectory => "Not a directory (os error 20)"
  | isDirectory => "Is a directory (os error 21)"
  | nameTooLong => "File name too long (os error 36)"
  | tooManyLinks => "Too many levels of symbolic links (os error 40)"
  | notText => "stream did not contain valid UTF-8"
  | nulInName => "file name contained an unexpected NUL byte"
  | noSpace => "No space left on device (os error 28)"

/-- Why a walk stops. -/
inductive WalkError where
  | access (path : Path) (error : Error)
  /-- A link leads back to a directory that it lies in. -/
  | loop (link ancestor : Path)
deriving DecidableEq

namespace WalkError

/-- The path at which the walk stops. -/
def path : WalkError → Path
  | access path _ => path
  | loop link _ => link

/-- The text of the reason. -/
def message : WalkError → String
  | access path error => "IO error for operation on " ++ path.display ++ ": " ++ error.message
  | loop link ancestor =>
    "File system loop found: " ++ link.display ++ " points to an ancestor " ++ ancestor.display

end WalkError

end PolicyPages.Files
