/-!
# Errors of the system

A failed system call has a number, and a number has a text. Errors that do not come from a system
call have only a text.

## Main definitions

* `IoError`, `IoError.message` — the errors and their texts
-/

namespace Readback

/-- Why the system refused an operation. -/
inductive IoError
  | system (number : Nat)
  | other (text : String)
  deriving DecidableEq, Repr

namespace IoError

/-- The number for a file that does not exist. -/
def notFound : IoError := system 2
/-- The number for a file that may not be used so. -/
def permissionDenied : IoError := system 13
/-- The number for a file where a directory was expected. -/
def notADirectory : IoError := system 20
/-- The number for a directory where a file was expected. -/
def isADirectory : IoError := system 21
/-- The number for a name or path that is too long. -/
def nameTooLong : IoError := system 36

/-- The text of a system call's error number. -/
def systemText : Nat → String
  | 1 => "Operation not permitted"
  | 2 => "No such file or directory"
  | 3 => "No such process"
  | 4 => "Interrupted system call"
  | 5 => "Input/output error"
  | 6 => "No such device or address"
  | 7 => "Argument list too long"
  | 8 => "Exec format error"
  | 9 => "Bad file descriptor"
  | 10 => "No child processes"
  | 11 => "Resource temporarily unavailable"
  | 12 => "Cannot allocate memory"
  | 13 => "Permission denied"
  | 14 => "Bad address"
  | 16 => "Device or resource busy"
  | 17 => "File exists"
  | 18 => "Invalid cross-device link"
  | 19 => "No such device"
  | 20 => "Not a directory"
  | 21 => "Is a directory"
  | 22 => "Invalid argument"
  | 23 => "Too many open files in system"
  | 24 => "Too many open files"
  | 26 => "Text file busy"
  | 27 => "File too large"
  | 28 => "No space left on device"
  | 29 => "Illegal seek"
  | 30 => "Read-only file system"
  | 31 => "Too many links"
  | 32 => "Broken pipe"
  | 36 => "File name too long"
  | 39 => "Directory not empty"
  | 40 => "Too many levels of symbolic links"
  | 122 => "Disk quota exceeded"
  | n => "Unknown error " ++ toString n

/-- The text of an error; the number of a system call's error goes with it. -/
def message : IoError → String
  | system number => systemText number ++ " (os error " ++ toString number ++ ")"
  | other text => text

end IoError

end Readback
