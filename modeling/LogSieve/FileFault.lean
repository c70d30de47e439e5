/-!
# Faults of files

What the file system says about a file that cannot be used.
-/
namespace LogSieve

inductive FileFault where
  | notFound
  | notADirectory
  | isADirectory
  | noSpace
  | nameTooLong
  | notUtf8
  | nulInName
deriving DecidableEq, Repr

/-- The words of the file system, with its number for the fault where it has one. -/
def FileFault.message : FileFault → String
  | .notFound => "No such file or directory (os error 2)"
  | .notADirectory => "Not a directory (os error 20)"
  | .isADirectory => "Is a directory (os error 21)"
  | .noSpace => "No space left on device (os error 28)"
  | .nameTooLong => "File name too long (os error 36)"
  | .notUtf8 => "stream did not contain valid UTF-8"
  | .nulInName => "file name contained an unexpected NUL byte"

end LogSieve
