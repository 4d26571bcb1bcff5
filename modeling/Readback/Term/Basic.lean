import Readback.Name
import Readback.Float64

/-!
# Terms

The terms of a dependent calculus with inductive types, machine integers and floats. Variables are
de Bruijn indices. An application carries its whole list of arguments; `Term.mkApp` keeps
applications in spine form, where no application is the head of another and none is empty.

## Main definitions

* `Universe` — the sort of a type
* `Term` — the terms, with `Term.mkApp` and `Term.spine` to build and to split applications
* `Term.induction` — induction with a hypothesis for each argument of an application
-/

namespace Readback

/-- The sort of a type. -/
inductive Universe
  | prop
  | set
  | type (level : Nat)
  deriving DecidableEq, Repr, Inhabited

namespace Universe

/-- The text of a sort. -/
def render : Universe → String
  | prop => "Prop"
  | set => "Set"
  | type level => "Type@\x7b" ++ toString level ++ "\x7d"

end Universe

/-- A term. `ctor` is the constructor of an inductive type at its position in the declaration. -/
inductive Term
  | var (index : Nat)
  | sort (u : Universe)
  | const (name : Name) (levels : Levels)
  | ind (name : Name) (levels : Levels)
  | ctor (ind : Name) (index : Nat) (levels : Levels)
  | app (head : Term) (args : List Term)
  | pi (binder : Name) (domain codomain : Term)
  | lam (binder : Name) (domain body : Term)
  | letIn (binder : Name) (value type body : Term)
  | int (value : Int)
  | float (value : Float64)
  deriving Repr, Inhabited

namespace Term

/-- Induction over terms, with the hypothesis for every argument of an application. -/
@[elab_as_elim]
theorem induction {motive : Term → Prop} (var : ∀ i, motive (.var i)) (sort : ∀ u, motive (.sort u))
    (const : ∀ n l, motive (.const n l)) (ind : ∀ n l, motive (.ind n l))
    (ctor : ∀ n i l, motive (.ctor n i l))
    (app : ∀ h as, motive h → (∀ a ∈ as, motive a) → motive (.app h as))
    (pi : ∀ x d c, motive d → motive c → motive (.pi x d c))
    (lam : ∀ x d b, motive d → motive b → motive (.lam x d b))
    (letIn : ∀ x v t b, motive v → motive t → motive b → motive (.letIn x v t b))
    (int : ∀ n, motive (.int n)) (float : ∀ x, motive (.float x)) (t : Term) : motive t :=
  t.rec (motive_2 := fun as => ∀ a ∈ as, motive a)
    var sort const ind ctor app pi lam letIn int float
    (fun _ h => absurd h List.not_mem_nil)
    (fun _ _ head tail a h => (List.mem_cons.mp h).elim (fun e => e ▸ head) (tail a))

/-- The application of a head to arguments, in spine form: without arguments it is the head, and an
application as head takes the arguments after its own. -/
def mkApp : Term → List Term → Term
  | head, [] => head
  | app head first, args => app head (first ++ args)
  | head, args => app head args

/-- The head of a term and its arguments; a term that is no application is its own head. -/
def spine : Term → Term × List Term
  | app head args => (head, args)
  | t => (t, [])

@[simp] theorem mkApp_nil (t : Term) : t.mkApp [] = t := by
  cases t <;> rfl

/-- Applying twice is applying once to all the arguments. -/
theorem mkApp_mkApp (t : Term) (as bs : List Term) :
    (t.mkApp as).mkApp bs = t.mkApp (as ++ bs) := by
  cases as with
  | nil => simp
  | cons a as => cases bs <;> cases t <;> simp [mkApp]

end Term

end Readback
