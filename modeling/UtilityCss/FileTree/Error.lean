/-!
# File Errors

Why something cannot be done with a file.

## Main definitions

* `FileError`: The reasons.
* `FileError.message`: Their wording, with the numbers that systems give them.
-/

namespace UtilityCss

/-- Why something cannot be done with a file. -/
inductive FileError where
  /-- There is nothing at the path. -/
  | notFound
  /-- There is something at the path already. -/
  | alreadyExists
  /-- Something on the way is no directory. -/
  | notDirectory
  /-- There is a directory at the path. -/
  | isDirectory
  /-- Too many links have to be followed. -/
  | tooManyLinks
  /-- The file may not be opened. -/
  | denied
  /-- The bytes of the file are no text. -/
  | notText
deriving DecidableEq, Repr, Inhabited

namespace FileError

/-- The wording of a reason. -/
def message : FileError → String
  | notFound => "No such file or directory (os error 2)"
  | alreadyExists => "File exists (os error 17)"
  | notDirectory => "Not a directory (os error 20)"
  | isDirectory => "Is a directory (os error 21)"
  | tooManyLinks => "Too many levels of symbolic links (os error 40)"
  | denied => "Permission denied (os error 13)"
  | notText => "stream did not contain valid UTF-8"

end FileError

end UtilityCss
