import NfaInduction.Text.Quoted

/-! Failures of the file system and of the bytes it delivers. -/

namespace NfaInduction

/-- Why the file system did not open, create or read a file. -/
inductive FileFailure where
  /-- Nothing has that name. -/
  | notFound
  /-- A file stands where the path needs a directory. -/
  | notADirectory
  /-- A directory stands where the path names a file. -/
  | isADirectory
  /-- The name is longer than the file system admits. -/
  | nameTooLong
  /-- The name holds the character that ends names. -/
  | nameWithNul
  /-- Any other failure, with what the system says about it. -/
  | other (description : String)
deriving DecidableEq

namespace FileFailure

/-- The number, the kind and the words of a failure that the system knows by number. -/
def system? : FileFailure → Option (Nat × String × String)
  | .notFound => some (2, "NotFound", "No such file or directory")
  | .notADirectory => some (20, "NotADirectory", "Not a directory")
  | .isADirectory => some (21, "IsADirectory", "Is a directory")
  | .nameTooLong => some (36, "InvalidFilename", "File name too long")
  | .nameWithNul => none
  | .other _ => none

/-- What a name that cannot be passed on is refused with. -/
def nulMessage : String := "file name contained an unexpected NUL byte"

/-- What is reported about a failure. -/
def message (failure : FileFailure) : String :=
  match failure.system?, failure with
  | some (code, _, words), _ => s!"{words} (os error {code})"
  | none, .other description => description
  | none, _ => nulMessage

/-- A failure with all its parts named. -/
def inspect (failure : FileFailure) : String :=
  match failure.system?, failure with
  | some (code, kind, words), _ =>
    s!"Os \x7b code: {code}, kind: {kind}, message: " ++ Text.quoted words ++ " \x7d"
  | none, .other description => description
  | none, _ => "Error \x7b kind: InvalidInput, message: " ++ Text.quoted nulMessage ++ " \x7d"

end FileFailure

/-- Why a line could not be read. -/
inductive InputFailure where
  /-- The bytes of the line are not valid UTF-8. -/
  | invalidText
  /-- The file system failed. -/
  | file (failure : FileFailure)
deriving DecidableEq

namespace InputFailure

/-- What bytes that are not valid UTF-8 are refused with. -/
def invalidTextMessage : String := "stream did not contain valid UTF-8"

/-- What is reported about a failure. -/
def message : InputFailure → String
  | .invalidText => invalidTextMessage
  | .file failure => failure.message

/-- A failure with all its parts named. -/
def inspect : InputFailure → String
  | .invalidText =>
    "Error \x7b kind: InvalidData, message: " ++ Text.quoted invalidTextMessage ++ " \x7d"
  | .file failure => failure.inspect

end InputFailure

end NfaInduction
