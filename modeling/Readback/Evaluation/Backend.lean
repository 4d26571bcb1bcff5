import Readback.Build.Import
import Readback.Evaluation.Error
import Readback.Evaluation.Message

/-!
# What an evaluator relies on

The compiler, the C toolchain, the loader and the compiled code itself are not part of the library.
Each is a function on a state of the outside world, about which nothing is assumed.

## Main definitions

* `Product`, `Compilation`, `Emission` — what the compiler makes
* `Invocation` — what compiled code does when it is called
* `Backend` — the operations that an evaluator calls
-/

namespace Readback

/-- What a compiler generates: a program, glue code for declarations, or wrappers for calls from
another language. -/
inductive Product
  | program
  | glue
  | foreign
  deriving DecidableEq, Repr

/-- The file stem of a product, from the stem of the options. -/
def Product.stem : Product → String → String
  | program, stem => stem
  | glue, stem => "glue." ++ stem
  | foreign, stem => "ffi." ++ stem

/-- The two modules that a compiler generates. -/
structure Modules (Module : Type) where
  header : Module
  definitions : Module

/-- What the compiler answers: modules or the reason why there are none, and diagnostics. -/
structure Compilation (Module : Type) where
  result : Except String (Modules Module)
  diagnostics : Diagnostics := {}

/-- The text of a module as far as it was written, and the error that cut it short, of the compiler
or of the system that takes the text. -/
structure Emission where
  text : String
  failure : Option IoError := none

/-- What compiled code did when it was called: what it said to the host, and its result. -/
structure Invocation where
  calls : List HostCall := []
  result : Except EvalError Value

/-- The operations that an evaluator calls, as functions on a state of the outside world. -/
structure Backend (World Source Module Entry : Type) where
  compile : Product → Options → Source → StateM World (Compilation Module)
  emit : Module → StateM World Emission
  build : BuildStage → BuildJob → StateM World (Except ToolchainError Unit)
  load : Path → String → StateM World (Except EvalError Entry)
  invoke : Entry → StateM World Invocation

end Readback
