import MiniA64.Text.Quoted

/-!
# Host errors

Why a console or file operation failed. File system errors carry the path that was used; a
device may also report a reason in its own words.
-/

namespace MiniA64

inductive FileError
  | notFound
  | exists_
  | notDirectory
  | isDirectory
  | nameTooLong
  deriving DecidableEq, Repr, Inhabited

namespace FileError

def number : FileError → Nat
  | notFound => 2
  | exists_ => 17
  | notDirectory => 20
  | isDirectory => 21
  | nameTooLong => 36

def reason : FileError → String
  | notFound => "No such file or directory"
  | exists_ => "File exists"
  | notDirectory => "Not a directory"
  | isDirectory => "Is a directory"
  | nameTooLong => "File name too long"

end FileError

inductive DeviceError
  | failed (reason : String)
  | outsideStore (name : String)
  | file (error : FileError) (path : String)
  | nullInName
  deriving DecidableEq, Repr

def DeviceError.message : DeviceError → String
  | failed reason => reason
  | outsideStore name => "file name outside store: " ++ Text.quoted name
  | file error path =>
    "[Errno " ++ toString error.number ++ "] " ++ error.reason ++ ": " ++ Text.quoted path
  | nullInName => "embedded null byte"

end MiniA64
