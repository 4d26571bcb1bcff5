import Readback.Proofs.Substitution
import Readback.Term.HeadReduction
import Mathlib.Logic.Relation

/-!
# Head reduction as a relation

The weak head normal form of a term is what steps at the head lead to, however many they are: the
budget only has to be large enough.

## Main definitions

* `Term.HeadStep`, `Term.HeadSteps` — one step at the head, and any number of them

## Main statements

* `Term.headStep_iff` — the function takes exactly these steps
* `Term.HeadStep.unique` — there is at most one step at the head
* `Term.HeadSteps.whnf`, `Term.headSteps_of_whnf` — normal forms are where steps end
-/

namespace Readback

/-- The constant is no primitive type and has a body, which it unfolds to. -/
def Environment.Unfolds (env : Environment) (name : Name) (body : Term) : Prop :=
  env.primitive? name = none ∧ ∃ d, env.definition? name = some d ∧ d.body = some body

namespace Term

variable {env : Environment} {t s u : Term} {fuel : Nat}

/-- The first term becomes the second one by a step at its head. -/
inductive HeadStep (env : Environment) (t : Term) : Term → Prop
  | beta {x : Name} {domain body arg : Term} {args : List Term}
      (spine : t.spine = (lam x domain body, arg :: args)) :
      HeadStep env t ((body.instantiate [arg]).mkApp args)
  | zeta {x : Name} {value type body : Term} {args : List Term}
      (spine : t.spine = (letIn x value type body, args)) :
      HeadStep env t ((body.instantiate [value]).mkApp args)
  | delta {name : Name} {levels : Levels} {args : List Term} {body : Term}
      (spine : t.spine = (const name levels, args)) (unfolds : env.Unfolds name body) :
      HeadStep env t (body.mkApp args)

/-- The first term becomes the second one by steps at its head. -/
abbrev HeadSteps (env : Environment) : Term → Term → Prop := Relation.ReflTransGen (HeadStep env)

/-- The function takes exactly the steps at the head. -/
theorem headStep_iff : t.headStep env = .ok (some s) ↔ HeadStep env t s := by
  constructor
  · intro stepped
    unfold headStep at stepped
    split at stepped
    next spine =>
      obtain rfl := Option.some.inj (Except.ok.inj stepped)
      exact .beta spine
    next spine =>
      obtain rfl := Option.some.inj (Except.ok.inj stepped)
      exact .zeta spine
    next spine =>
      split at stepped
      · cases stepped
      next d noPrimitive found =>
        obtain ⟨body, hasBody, rfl⟩ := Option.map_eq_some_iff.mp (Except.ok.inj stepped)
        exact .delta spine ⟨noPrimitive, d, found, hasBody⟩
      · cases stepped
    · cases stepped
  · rintro (spine | spine | ⟨spine, noPrimitive, d, found, hasBody⟩)
    · rw [headStep, spine]
    · rw [headStep, spine]
    · rw [headStep, spine]
      simp only [noPrimitive, found, hasBody, Option.map_some]

/-- Only an unknown constant at the head keeps the function from an answer. -/
theorem headStep_eq_error_iff_exists {e : ReductionError} :
    t.headStep env = .error e ↔ ∃ name levels args, t.spine = (const name levels, args) ∧
      env.primitive? name = none ∧ env.definition? name = none ∧ e = .unknownConstant name := by
  constructor
  · intro failed
    unfold headStep at failed
    split at failed
    · cases failed
    · cases failed
    next name levels args spine =>
      split at failed
      · cases failed
      · cases failed
      next noPrimitive undefined =>
        exact ⟨name, levels, args, spine, noPrimitive, undefined, (Except.error.inj failed).symm⟩
    · cases failed
  · rintro ⟨name, levels, args, spine, noPrimitive, undefined, rfl⟩
    rw [headStep, spine]
    simp only [noPrimitive, undefined]

/-- A term takes at most one step at its head. -/
theorem HeadStep.unique (step : HeadStep env t s) (step' : HeadStep env t u) : s = u := by
  rw [← headStep_iff] at step step'
  exact Option.some.inj (Except.ok.inj (step.symm.trans step'))

/-- A step at the head takes one unit of what remains of the budget. -/
theorem HeadStep.whnfWithin (step : HeadStep env t s) (budget remaining : Nat) :
    t.whnfWithin env budget (remaining + 1) = s.whnfWithin env budget remaining := by
  rw [Term.whnfWithin, headStep_iff.mpr step]

/-- The term takes no step at its head, which is known to have none. -/
def HeadNormal (env : Environment) (t : Term) : Prop := t.headStep env = .ok none

theorem HeadNormal.whnfWithin (normal : HeadNormal env t) (budget remaining : Nat) :
    t.whnfWithin env budget remaining = .ok t := by
  rw [Term.whnfWithin, normal]

theorem headSteps_of_whnfWithin {budget : Nat} :
    ∀ {remaining : Nat} {t : Term}, t.whnfWithin env budget remaining = .ok s →
      HeadSteps env t s ∧ HeadNormal env s
  | remaining, t, found => by
    rw [whnfWithin] at found
    split at found
    · cases found
    next normal =>
      obtain rfl := Except.ok.inj found
      exact ⟨.refl, normal⟩
    next next stepped =>
      cases remaining with
      | zero => cases found
      | succ remaining =>
        -- the budget bounds the steps that are left, and so the recursion
        obtain ⟨steps, normal⟩ := headSteps_of_whnfWithin found
        exact ⟨.head (headStep_iff.mp stepped) steps, normal⟩

/-- The normal form is reached by steps at the head. -/
theorem headSteps_of_whnf (found : t.whnf env fuel = .ok s) :
    HeadSteps env t s ∧ HeadNormal env s :=
  headSteps_of_whnfWithin found

/-- What steps at the head end with is the normal form, for every budget that is large enough. -/
theorem HeadSteps.whnf (steps : HeadSteps env t s) (normal : HeadNormal env s) :
    ∃ enough, ∀ fuel ≥ enough, t.whnf env fuel = .ok s := by
  have within : ∃ enough, ∀ budget remaining, enough ≤ remaining →
      t.whnfWithin env budget remaining = .ok s := by
    induction steps using Relation.ReflTransGen.head_induction_on with
    | refl => exact ⟨0, fun budget remaining _ => normal.whnfWithin budget remaining⟩
    | head step steps ih =>
      obtain ⟨enough, found⟩ := ih
      refine ⟨enough + 1, fun budget remaining more => ?_⟩
      cases remaining with
      | zero => cases more
      | succ remaining =>
        rw [step.whnfWithin]
        exact found budget remaining (Nat.le_of_succ_le_succ more)
  obtain ⟨enough, found⟩ := within
  exact ⟨enough, fun fuel more => found fuel fuel more⟩

/-- Steps at the head that end in normal form end alike. -/
theorem HeadSteps.unique (steps : HeadSteps env t s) (normal : HeadNormal env s)
    (steps' : HeadSteps env t u) (normal' : HeadNormal env u) : s = u := by
  obtain ⟨enough, found⟩ := HeadSteps.whnf steps normal
  obtain ⟨enough', found'⟩ := HeadSteps.whnf steps' normal'
  have first := found (max enough enough') (Nat.le_max_left _ _)
  have second := found' (max enough enough') (Nat.le_max_right _ _)
  exact Except.ok.inj (first.symm.trans second)

end Term

end Readback
