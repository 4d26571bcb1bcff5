import Readback.Files.IoError

/-!
# Commands and how they end

## Main definitions

* `Command`, `Command.line` — a program with arguments
* `ProcessStatus` — how a process ended
* `ProcessOutcome` — what running a command came to
-/

namespace Readback

/-- A program with its arguments. -/
structure Command where
  program : String
  args : List String
  deriving DecidableEq, Repr

/-- The command with blanks between its parts. -/
def Command.line (c : Command) : String := " ".intercalate (c.program :: c.args)

/-- How a process ended. -/
inductive ProcessStatus
  | exited (code : Int)
  | signaled (signal : Int)
  | unknown
  deriving DecidableEq, Repr

namespace ProcessStatus

/-- Reads the status word of a process that was waited for. The low seven bits are zero after an
exit, and all ones for a process that has only stopped; otherwise they are the signal. -/
def ofWaitStatus (status : Int) : ProcessStatus :=
  if status % 128 = 0 then exited (status / 256 % 256)
  else if status % 128 = 127 then unknown
  else signaled (status % 128)

/-- Whether the process ended well. -/
def isSuccess (s : ProcessStatus) : Bool := s = exited 0

/-- The text of a status. -/
def message : ProcessStatus → String
  | exited code => "exit code " ++ toString code
  | signaled signal => "killed by signal " ++ toString signal
  | unknown => "unknown status"

end ProcessStatus

/-- What running a command came to: it never started, or it ended, having written bytes to its
error output. -/
inductive ProcessOutcome
  | notStarted (cause : IoError)
  | ended (status : ProcessStatus) (errorOutput : List UInt8)
  deriving DecidableEq, Repr

end Readback
