/-
  Offside.Files.Error
  ───────────────────
  Why an operation on files is refused.
-/
import Offside.Text.Quoted

namespace Offside

open Text

/-- The reasons for which the file store refuses an operation. -/
inductive FileCause where
  | notFound
  | tooManyWords
  | notExecutable
  | badDescriptor
  | denied
  | exists
  | notDirectory
  | isDirectory
  | tooLarge
  | nameTooLong
  | tooManyLinks
  /-- The links on the way lead round in a circle. -/
  | endless
  deriving Repr, DecidableEq

/-- The number of a reason. -/
def FileCause.number : FileCause → Nat
  | .notFound => 2
  | .tooManyWords => 7
  | .notExecutable => 8
  | .badDescriptor => 9
  | .denied => 13
  | .exists => 17
  | .notDirectory => 20
  | .isDirectory => 21
  | .tooLarge => 27
  | .nameTooLong => 36
  | .tooManyLinks | .endless => 40

/-- The wording of a reason. -/
def FileCause.text : FileCause → String
  | .notFound => "No such file or directory"
  | .tooManyWords => "Argument list too long"
  | .notExecutable => "Exec format error"
  | .badDescriptor => "Bad file descriptor"
  | .denied => "Permission denied"
  | .exists => "File exists"
  | .notDirectory => "Not a directory"
  | .isDirectory => "Is a directory"
  | .tooLarge => "File too large"
  | .nameTooLong => "File name too long"
  | .tooManyLinks | .endless => "Too many levels of symbolic links"

/-- Whether a path leads nowhere for this reason. -/
def FileCause.isMissing (cause : FileCause) : Bool := cause == .notFound || cause == .notDirectory

/-- Why an operation on a path does not take place. -/
inductive FileError where
  /-- The file store refuses it. -/
  | refused (cause : FileCause) (path : String)
  /-- The path has a null character in it, and no file has such a name. -/
  | nullInPath
  /-- There are more directories above the path than can be gone through at once. -/
  | tooDeep
  deriving Repr, DecidableEq

/-- The wording of such a reason.  A file that cannot be filled is open, and its
path is no longer known. -/
def FileError.message : FileError → String
  | .refused .endless path => s!"Symlink loop from {quotedString path}"
  | .refused .tooLarge _ => s!"[Errno {FileCause.tooLarge.number}] {FileCause.tooLarge.text}"
  | .refused cause path => s!"[Errno {cause.number}] {cause.text}: {quotedString path}"
  | .nullInPath => "embedded null byte"
  | .tooDeep => "maximum recursion depth exceeded while calling a Python object"

/-- The reason without the path. -/
def FileError.reason : FileError → String
  | .refused cause _ => cause.text
  | e => e.message

/-- Whether nothing is there. -/
def FileError.isMissing : FileError → Bool
  | .refused .notFound _ => true
  | _ => false

/-- Whether it is the file store that refuses.  That links lead round in a circle
is found out without it. -/
def FileError.isRefusal : FileError → Bool
  | .refused .endless _ => false
  | .refused .. => true
  | _ => false

end Offside
