/-!
What the storage of tables does with files: finding out where a path leads, reading and writing. The
storage is written for any implementation of `FileSystem`; `FileTree` is one whose files are a
value.
-/
namespace LinkedSheet

/-- Why a file cannot be read or written. -/
inductive FileError where
  | missing
  | notADirectory
  | isADirectory
  | notText
  /-- A file that is larger than the limit is not read. -/
  | tooLarge (path kind : String) (size limit : Nat)
  | other (message : String)
deriving DecidableEq, Repr

namespace FileError

def message : FileError → String
  | missing => "No such file or directory (os error 2)"
  | notADirectory => "Not a directory (os error 20)"
  | isADirectory => "Is a directory (os error 21)"
  | notText => "stream did not contain valid UTF-8"
  | tooLarge path kind size limit =>
    "Refusing to read " ++ path ++ ": " ++ kind ++ s!" too large ({size} bytes, max {limit})"
  | other text => text

end FileError

inductive FileKind where
  | file
  | directory
deriving DecidableEq, Repr

class FileSystem (m : Type → Type) where
  /-- The absolute path of a file or directory, without detours. -/
  canonical (path : String) : m (Except FileError String)
  /-- What a path leads to, if it leads anywhere. -/
  kind? (path : String) : m (Option FileKind)
  /-- The number of bytes of a file. -/
  size (path : String) : m (Except FileError Nat)
  read (path : String) : m (Except FileError ByteArray)
  /-- Writes a whole file, anew or in place of what it held. -/
  write (path : String) (content : ByteArray) : m (Except FileError Unit)

end LinkedSheet
