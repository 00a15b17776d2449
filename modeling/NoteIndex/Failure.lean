import NoteIndex.Path.Basic
import NoteIndex.Glob.Basic

/-! Why an operation on the index fails. -/
namespace NoteIndex

/-- Why a file cannot be read. -/
inductive ReadFault where
  | notFound
  | isDirectory
  | notDirectory
  | nameTooLong
  | tooManyLinks
  | nulInName
  | notUtf8
  deriving DecidableEq, Repr

def ReadFault.message : ReadFault → String
  | notFound => "No such file or directory (os error 2)"
  | isDirectory => "Is a directory (os error 21)"
  | notDirectory => "Not a directory (os error 20)"
  | nameTooLong => "File name too long (os error 36)"
  | tooManyLinks => "Too many levels of symbolic links (os error 40)"
  | nulInName => "file name contained an unexpected NUL byte"
  | notUtf8 => "stream did not contain valid UTF-8"

inductive Failure where
  | read (path : Path) (fault : ReadFault)
  /-- An ignore line whose glob cannot be read. -/
  | pattern (line glob : String) (fault : Glob.Fault)
  | noFolders
  /-- A path that no folder of the workspace owns. -/
  | unowned (path : Path)
  deriving DecidableEq, Repr

namespace Failure

def message : Failure → String
  | read path fault => "failed to read " ++ path.display ++ ": " ++ fault.message
  | pattern line glob fault =>
    "invalid ignore pattern \x60" ++ line ++ "\x60: error parsing glob '" ++ glob ++ "': "
      ++ fault.message
  | noFolders => "no workspace folders were registered"
  | unowned path => path.display ++ " is not inside any registered workspace folder"

/-- Whether the caller named a path that it should not have named. -/
def isContractViolation : Failure → Bool
  | unowned _ => true
  | _ => false

end Failure

end NoteIndex
