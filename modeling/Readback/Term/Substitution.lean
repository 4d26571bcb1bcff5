import Readback.Term.Basic

/-!
# Substitution

Lifting makes room for new binders around a term, instantiation fills the outermost binders of a
term with values. Both walk the term once, counting the binders they cross, and rebuild the
applications they pass in spine form. With nothing to lift by and with no values they leave the
term as it is.

## Main definitions

* `Term.mapVars` — replaces every variable, by its index and the number of binders crossed
* `Term.lift`, `Term.instantiate` — lifting and simultaneous instantiation
* `Term.closedAbove`, `Term.isClosed` — whether variables stay below a bound
* `Term.arrow` — the type of functions whose codomain does not depend on the argument
-/

namespace Readback.Term

mutual

/-- Replaces every variable by `f index depth`, where `depth` counts the binders around it from
the given one on. -/
def mapVars (f : Nat → Nat → Term) (depth : Nat) : Term → Term
  | var i => f i depth
  | app head args => mkApp (mapVars f depth head) (mapVarsList f depth args)
  | pi x domain codomain => pi x (mapVars f depth domain) (mapVars f (depth + 1) codomain)
  | lam x domain body => lam x (mapVars f depth domain) (mapVars f (depth + 1) body)
  | letIn x value type body =>
    letIn x (mapVars f depth value) (mapVars f depth type) (mapVars f (depth + 1) body)
  | t => t

/-- Replaces every variable in each of the terms. -/
def mapVarsList (f : Nat → Nat → Term) (depth : Nat) : List Term → List Term
  | [] => []
  | t :: ts => mapVars f depth t :: mapVarsList f depth ts

end

theorem mapVarsList_eq_map (f : Nat → Nat → Term) (depth : Nat) (ts : List Term) :
    mapVarsList f depth ts = ts.map (mapVars f depth) := by
  induction ts with
  | nil => rfl
  | cons t ts ih => simp [mapVarsList, ih]

/-- The variable of that index, moved up by `amount` unless it is bound below `depth`. -/
def liftVar (amount index depth : Nat) : Term :=
  if depth ≤ index then var (index + amount) else var index

/-- Moves every variable from `cutoff` on up by `amount`. Indices have no upper bound here; a
machine that keeps them in words does the same as long as none overflows. -/
def lift (t : Term) (cutoff amount : Nat) : Term :=
  if amount = 0 then t else mapVars (liftVar amount) cutoff t

@[simp] theorem lift_zero (t : Term) (cutoff : Nat) : t.lift cutoff 0 = t := by
  simp [lift]

/-- What a variable becomes when the binders from `depth` on are given values, here listed from the
innermost binder outwards: the value of its binder, lifted over the binders crossed, or a variable
without those binders. -/
def instantiateVar (inner : List Term) (index depth : Nat) : Term :=
  if index < depth then var index
  else
    match inner[index - depth]? with
    | some value => lift value 0 depth
    | none => var (index - inner.length)

/-- Gives values to the outermost binders of a term. The first value belongs to the outermost of
them, so the last one replaces the variable `0`; variables beyond them move down. -/
def instantiate (t : Term) (values : List Term) : Term :=
  if values.isEmpty then t else mapVars (instantiateVar values.reverse) 0 t

@[simp] theorem instantiate_nil (t : Term) : t.instantiate [] = t := by
  simp [instantiate]

mutual

/-- Whether every variable is bound within the term or is below `depth`. -/
def closedAbove (depth : Nat) : Term → Bool
  | var i => i < depth
  | app head args => closedAbove depth head && closedAboveAll depth args
  | pi _ domain codomain => closedAbove depth domain && closedAbove (depth + 1) codomain
  | lam _ domain body => closedAbove depth domain && closedAbove (depth + 1) body
  | letIn _ value type body =>
    closedAbove depth value && closedAbove depth type && closedAbove (depth + 1) body
  | _ => true

/-- Whether all of the terms are closed above `depth`. -/
def closedAboveAll (depth : Nat) : List Term → Bool
  | [] => true
  | t :: ts => closedAbove depth t && closedAboveAll depth ts

end

theorem closedAboveAll_eq_all (depth : Nat) (ts : List Term) :
    closedAboveAll depth ts = ts.all (closedAbove depth) := by
  induction ts with
  | nil => rfl
  | cons t ts ih => simp [closedAboveAll, ih]

/-- Whether the term has no free variable. -/
def isClosed (t : Term) : Bool := t.closedAbove 0

/-- The type of functions from `domain` to `codomain`. The codomain is lifted over the binder, whose
name stands for no variable. -/
def arrow (domain codomain : Term) : Term := pi ⟨"_"⟩ domain (codomain.lift 0 1)

end Readback.Term
