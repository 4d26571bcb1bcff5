import Readback.Environment
import Readback.Term.Substitution

/-!
# Weak head reduction

A term is reduced at its head only: a function applied to an argument, a local definition, or a
constant that has a body. Primitive types and postulated constants are values. The number of steps
is bounded by a budget, since definitions may refer to themselves.

## Main definitions

* `ReductionError` — why reduction failed
* `Term.headStep` — one step at the head, if there is one
* `Term.whnf` — the weak head normal form within a budget of steps
-/

namespace Readback

/-- Why reduction failed. -/
inductive ReductionError
  | outOfFuel (budget : Nat)
  | unknownConstant (name : Name)
  deriving DecidableEq, Repr

/-- The text of a reduction error. -/
def ReductionError.message : ReductionError → String
  | outOfFuel budget => "head reduction did not finish within " ++ toString budget ++ " steps"
  | unknownConstant name => "constant `" ++ name.text ++ "` is not in the environment"

/-- The number of steps that reduction may take where nothing else is said. -/
def defaultFuel : Nat := 10000

/-- The largest budget that can be asked for: a budget is a 32-bit number. -/
def maxFuel : Nat := UInt32.size - 1

namespace Term

/-- One step at the head of a term, or `none` if the head is normal. The arguments beyond those that
the step uses up are kept. -/
def headStep (env : Environment) (t : Term) : Except ReductionError (Option Term) :=
  match t.spine with
  | (lam _ _ body, arg :: args) => .ok (some ((body.instantiate [arg]).mkApp args))
  | (letIn _ value _ body, args) => .ok (some ((body.instantiate [value]).mkApp args))
  | (const name _, args) =>
    match env.primitive? name, env.definition? name with
    -- a primitive type stays, even where a constant of the same name has a body
    | some _, _ => .ok none
    | none, some d => .ok (d.body.map (·.mkApp args))
    | none, none => .error (.unknownConstant name)
  | _ => .ok none

/-- Takes head steps while `remaining` allows. The last step is only found missing after the term
has been looked at, so a term that is normal needs no step. -/
def whnfWithin (env : Environment) (budget remaining : Nat) (t : Term) :
    Except ReductionError Term :=
  match t.headStep env with
  | .error e => .error e
  | .ok none => .ok t
  | .ok (some next) =>
    match remaining with
    | 0 => .error (.outOfFuel budget)
    | remaining + 1 => whnfWithin env budget remaining next

/-- The weak head normal form of a term, reached in at most `fuel` steps. It is defined for every
number of steps, those above `maxFuel` included. -/
def whnf (env : Environment) (fuel : Nat) (t : Term) : Except ReductionError Term :=
  whnfWithin env fuel fuel t

end Term

end Readback
