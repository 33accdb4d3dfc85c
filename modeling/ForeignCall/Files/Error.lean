/-!
# ForeignCall.Files.Error

Why a file cannot be used, with the number and the text of each reason.
-/

namespace ForeignCall

/-- Why a file or a program cannot be used. -/
inductive FileError where
  | missing
  | noDevice
  | tooManyArguments
  | badDescriptor
  | denied
  | notDirectory
  | isDirectory
  | noRoom
  | nameTooLong
deriving DecidableEq, Repr

namespace FileError

/-- The number of the error. -/
def number : FileError → Nat
  | missing => 2
  | noDevice => 6
  | tooManyArguments => 7
  | badDescriptor => 9
  | denied => 13
  | notDirectory => 20
  | isDirectory => 21
  | noRoom => 28
  | nameTooLong => 36

/-- The text of the error. -/
def text : FileError → String
  | missing => "No such file or directory"
  | noDevice => "No such device or address"
  | tooManyArguments => "Argument list too long"
  | badDescriptor => "Bad file descriptor"
  | denied => "Permission denied"
  | notDirectory => "Not a directory"
  | isDirectory => "Is a directory"
  | noRoom => "No space left on device"
  | nameTooLong => "File name too long"

/-- The text of the error with its number. -/
def reason (e : FileError) : String := e.text ++ " (os error " ++ toString e.number ++ ")"

end FileError

end ForeignCall
