/-!
# Failures of file operations

The reasons for which an operation on files is refused, with the number that the
operating system gives to each.
-/

namespace Intake.Files

inductive FileError where
  | notFound
  | exists
  | busy
  | notADirectory
  | isADirectory
  | invalid
  | nameTooLong
  | notEmpty
  | nulInName
  /-- No directory of a path could be made. -/
  | noTree
  deriving DecidableEq, Repr

def FileError.message : FileError → String
  | .notFound => "No such file or directory (os error 2)"
  | .busy => "Device or resource busy (os error 16)"
  | .exists => "File exists (os error 17)"
  | .notADirectory => "Not a directory (os error 20)"
  | .isADirectory => "Is a directory (os error 21)"
  | .invalid => "Invalid argument (os error 22)"
  | .nameTooLong => "File name too long (os error 36)"
  | .notEmpty => "Directory not empty (os error 39)"
  | .nulInName => "file name contained an unexpected NUL byte"
  | .noTree => "failed to create whole tree"

end Intake.Files
