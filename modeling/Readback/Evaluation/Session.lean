import Readback.Evaluation.Error
import Readback.Evaluation.Message
import Readback.Evaluation.Registry

/-!
# Sessions

What lasts from one request to the next: the registered artifacts, the channel of messages, the
files, and the state of the outside world. A step of a session may fail; what it has changed until
then stays.

## Main definitions

* `Session` — the state
* `Session.Run` — a step that may fail
* `Session.call`, `Session.require`, `Session.attaching` — the outside world and failures in a step
* `Session.reserve`, `Session.register`, `Session.takePending` — single changes as steps
-/

namespace Readback

/-- The state of a session: the registered artifacts, the pending messages, the files, and the
outside world. -/
structure Session (World Entry : Type) where
  registry : Registry Entry := {}
  channel : Channel := {}
  files : FileTree := {}
  world : World

namespace Session

/-- A step of a session. A step that fails keeps what it has changed. -/
abbrev Run (World Entry α : Type) := ExceptT EvalError (StateM (Session World Entry)) α

variable {World Entry α : Type}

/-- Calls an operation of the outside world. -/
def call (operation : StateM World α) : Run World Entry α := fun s =>
  let (answer, world) := operation s.world
  (.ok answer, { s with world })

/-- Fails with an error, or goes on with an answer. -/
def require (answer : Except EvalError α) : Run World Entry α := fun s => (answer, s)

/-- Attaches diagnostics to the error of a step. -/
def attaching (d : Diagnostics) (run : Run World Entry α) : Run World Entry α := fun s =>
  let (answer, s) := run s
  (answer.mapError (·.withDiagnostics d), s)

/-- Reserves a native symbol. -/
def reserve (base : String) : Run World Entry String := fun s =>
  let (symbol, registry) := s.registry.reserve base
  (.ok symbol, { s with registry })

/-- Registers an artifact and answers the one that is registered under its identifier. -/
def register (a : Artifact Entry) : Run World Entry (Artifact Entry) := fun s =>
  let (registered, registry) := s.registry.insert a
  (.ok registered, { s with registry })

/-- Takes what is pending in the channel. -/
def takePending : Run World Entry Channel := fun s => (.ok s.channel, { s with channel := {} })

end Session

end Readback
