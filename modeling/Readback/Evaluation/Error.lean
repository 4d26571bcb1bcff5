import Readback.Build.Toolchain
import Readback.Decode

/-!
# Failed evaluations

An evaluation can fail at every stage. What the compiler had to say before the failure is kept with
the error: a rejected program brings its diagnostics along, and to any other error they are attached
once.

## Main definitions

* `Diagnostics` — the lines that the compiler wrote
* `EvalError`, `EvalError.message` — why an evaluation failed
* `EvalError.withDiagnostics`, `EvalError.root`, `EvalError.diagnostics?` — diagnostics and errors
-/

namespace Readback

/-- The lines that the compiler wrote. -/
structure Diagnostics where
  lines : List String := []
  deriving DecidableEq, Repr

namespace Diagnostics

/-- Whether the compiler wrote nothing. -/
def isEmpty (d : Diagnostics) : Bool := d.lines.isEmpty

/-- The lines as one text. -/
def render (d : Diagnostics) : String := "\n".intercalate d.lines

end Diagnostics

/-- Why an evaluation failed. `build` is an error after a compilation that had diagnostics. -/
inductive EvalError
  | decode (cause : DecodeError)
  | compile (message : String) (diagnostics : Diagnostics)
  | toolchain (cause : ToolchainError)
  | notFound (id : String)
  | load (path : Path) (message : String)
  | io (path : Path) (cause : IoError)
  | options (cause : OptionsError)
  | fatal (message : String)
  | build (diagnostics : Diagnostics) (cause : EvalError)
  deriving DecidableEq, Repr

namespace EvalError

/-- The text of an error. Attached diagnostics do not change it. -/
def message : EvalError → String
  | decode cause => cause.message
  | compile message _ => "compilation failed: " ++ message
  | toolchain cause => cause.message
  | notFound id => "no compiled artifact is registered under `" ++ id ++ "`"
  | load path message => "failed to load `" ++ path.text ++ "`: " ++ message
  | io path cause => "I/O error on `" ++ path.text ++ "`: " ++ cause.message
  | options cause => cause.message
  | fatal message => "native code raised a fatal error: " ++ message
  | build _ cause => cause.message

/-- Attaches diagnostics, unless there are none or the error has its own. -/
def withDiagnostics (d : Diagnostics) (e : EvalError) : EvalError :=
  match e with
  | compile _ _ => e
  | build _ _ => e
  | _ => if d.isEmpty then e else build d e

/-- The error below all attached diagnostics. -/
def root : EvalError → EvalError
  | build _ cause => cause.root
  | e => e

/-- The diagnostics that come with an error. -/
def diagnostics? : EvalError → Option Diagnostics
  | compile _ d => some d
  | build d _ => some d
  | _ => none

/-- Attaching diagnostics leaves an error alone or puts one layer around it. -/
theorem withDiagnostics_eq_or (e : EvalError) (d : Diagnostics) :
    e.withDiagnostics d = e ∨ e.withDiagnostics d = build d e := by
  unfold withDiagnostics
  split
  · exact .inl rfl
  · exact .inl rfl
  · split
    · exact .inl rfl
    · exact .inr rfl

/-- Attached diagnostics do not change the text. -/
theorem message_withDiagnostics (e : EvalError) (d : Diagnostics) :
    (e.withDiagnostics d).message = e.message := by
  rcases withDiagnostics_eq_or e d with h | h <;> rw [h]
  rfl

/-- Attached diagnostics do not change the error below them. -/
theorem root_withDiagnostics (e : EvalError) (d : Diagnostics) :
    (e.withDiagnostics d).root = e.root := by
  rcases withDiagnostics_eq_or e d with h | h <;> rw [h]
  rfl

end EvalError

end Readback
