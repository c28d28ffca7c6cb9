import Partials.Text.Utf8

/-!
# Disks

What the library asks of a file system: six operations on paths as texts, each of which may fail.
They run in any monad, so the same programs run on a real file system and on a tree of values.
-/

namespace Partials

/-- Why an operation on a file system fails. -/
inductive OsError
  | notFound
  | alreadyExists
  | notADirectory
  | isADirectory
  | nameTooLong
  | busy
  /-- The path holds a null character, so it is no path of the system. -/
  | nullInPath
  /-- The bytes of a file are no text. -/
  | notText
  /-- Any other cause, in the system's words. -/
  | other (description : Text)
  deriving DecidableEq, Repr

def OsError.message : OsError → Text
  | .notFound => "No such file or directory (os error 2)".toList
  | .alreadyExists => "File exists (os error 17)".toList
  | .notADirectory => "Not a directory (os error 20)".toList
  | .isADirectory => "Is a directory (os error 21)".toList
  | .nameTooLong => "File name too long (os error 36)".toList
  | .busy => "Device or resource busy (os error 16)".toList
  | .nullInPath => "file name contained an unexpected NUL byte".toList
  | .notText => "stream did not contain valid UTF-8".toList
  | .other description => description

structure Disk (m : Type → Type) where
  /-- Makes one directory; the one that holds it must be there. -/
  makeDirectory : Text → m (Except OsError Unit)
  isDirectory : Text → m Bool
  isPresent : Text → m Bool
  /-- Makes a file with the bytes, or replaces the bytes of the file that is there. -/
  create : Text → Utf8.Bytes → m (Except OsError Unit)
  /-- Moves a file in one step onto another path, replacing a file that is there. -/
  rename : Text → Text → m (Except OsError Unit)
  read : Text → m (Except OsError Utf8.Bytes)

end Partials
