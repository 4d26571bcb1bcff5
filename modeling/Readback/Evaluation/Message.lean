import Readback.Text.Lossy

/-!
# Messages of compiled code

While it runs, compiled code sends messages to the host and may raise a fatal error. The channel
keeps both until the host takes them. The first fatal error counts.

## Main definitions

* `Message`, `HostCall` — what compiled code says to the host
* `Channel`, `Channel.receive` — the messages and the fatal error that are pending
* `messageText` — the text of the bytes that compiled code hands over
-/

namespace Readback

/-- How important a message is. -/
inductive MessageLevel
  | info
  | debug
  | notice
  deriving DecidableEq, Repr

/-- The word for a level. -/
def MessageLevel.render : MessageLevel → String
  | info => "info"
  | debug => "debug"
  | notice => "notice"

/-- A message of compiled code. -/
structure Message where
  level : MessageLevel
  text : String
  deriving DecidableEq, Repr

/-- What compiled code says to the host. -/
inductive HostCall
  | post (message : Message)
  | fatal (text : String)
  deriving DecidableEq, Repr

/-- The messages, oldest first, and the fatal error that are pending. -/
structure Channel where
  messages : List Message := []
  fatal : Option String := none
  deriving DecidableEq, Repr

namespace Channel

/-- Takes in what compiled code says. A second fatal error changes nothing. -/
def receive (c : Channel) : HostCall → Channel
  | .post m => { c with messages := c.messages ++ [m] }
  | .fatal text => { c with fatal := c.fatal <|> some text }

/-- Takes in several calls, one after the other. -/
def receiveAll (c : Channel) (calls : List HostCall) : Channel := calls.foldl receive c

end Channel

/-- The text that compiled code hands over as bytes: up to the first zero byte, and nothing for the
null pointer. -/
def messageText : Option (List UInt8) → String
  | none => ""
  | some bytes => Text.decodeLossy (bytes.takeWhile (· ≠ 0))

end Readback
