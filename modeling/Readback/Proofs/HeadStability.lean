import Readback.Proofs.Budget
import Readback.Proofs.Instantiation

/-!
# Head reduction of terms that are filled in

The type of a field is instantiated before it is reduced, it is applied to further arguments, and it
is lifted over binders. Nothing of this is in the way of the steps at its head. The term that is
filled in takes the steps that the term itself takes, and then goes on from the normal form that
these lead to, filled in likewise. Lifting renames variables only, and so makes no step possible
that was not possible before.

## Main definitions

* `ReductionError.withBudget` — the same failure with another budget
* `Term.NormalizesIn` — a normal form that takes exactly so many steps
* `Term.KeepsHead` — contexts in which a term still takes its steps at the head

## Main statements

* `Term.KeepsHead.whnf_add` — in such a context reduction goes on from the normal form
* `Term.whnf_lift` — lifting commutes with head reduction
* `Term.whnf_stable` — instantiation, application and lifting
-/

namespace Readback

/-- The failure, told with another budget. -/
def ReductionError.withBudget (budget : Nat) : ReductionError → ReductionError
  | outOfFuel _ => outOfFuel budget
  | unknownConstant name => unknownConstant name

namespace Term

variable {env : Environment} {t s r : Term} {σ : Nat → Term} {context : Term → Term} {k n m : Nat}

/-- A step does not fail for lack of budget. -/
theorem withBudget_of_headStep {e : ReductionError} (failed : t.headStep env = .error e)
    (budget : Nat) : e.withBudget budget = e := by
  obtain ⟨name, -, -, -, -, -, rfl⟩ := headStep_eq_error_iff_exists.mp failed
  rfl

/-- The budget only shows in the failure that names it. -/
theorem whnfWithin_eq_mapError (budget other remaining : Nat) (t : Term) :
    t.whnfWithin env budget remaining =
      (t.whnfWithin env other remaining).mapError (·.withBudget budget) := by
  induction remaining generalizing t with
  | zero =>
    rw [whnfWithin, whnfWithin]
    rcases stepped : t.headStep env with e | _ | next
    · simp [withBudget_of_headStep stepped]
    · simp
    · simp [ReductionError.withBudget]
  | succ remaining ih =>
    rw [whnfWithin, whnfWithin]
    rcases stepped : t.headStep env with e | _ | next
    · simp [withBudget_of_headStep stepped]
    · simp
    · exact ih next

/-! ## Exactly so many steps -/

/-- The weak head normal form of the first term is the second one, found with a budget of so many
steps and with no smaller one. -/
structure NormalizesIn (env : Environment) (t : Term) (k : Nat) (r : Term) : Prop where
  found : t.whnf env k = .ok r
  least : ∀ fewer < k, t.whnf env fewer ≠ .ok r

/-- The number of steps is that of the contractions that lead to the normal form. -/
theorem normalizesIn_iff (bodies : env.SpineBodies) (spine : t.inSpineForm) :
    NormalizesIn env t k r ↔ HeadChain env t k r ∧ WeakHeadNormal env r := by
  constructor
  · rintro ⟨found, least⟩
    rw [whnf_eq_iff bodies spine, headOutcome_ok_iff] at found
    obtain ⟨⟨m, within, chain⟩, normal⟩ := found
    have found := (HeadOutcome.normal (Nat.le_refl m) chain normal).whnf_eq bodies spine
    have all : ¬ m < k := fun fewer => least m fewer found
    obtain rfl : m = k := by omega
    exact ⟨chain, normal⟩
  · rintro ⟨chain, normal⟩
    refine ⟨?_, fun fewer less found => ?_⟩
    · rw [chain.whnf_eq bodies spine normal, if_pos (Nat.le_refl k)]
    · rw [chain.whnf_eq bodies spine normal, if_neg (Nat.not_le_of_lt less)] at found
      cases found

/-! ## Contexts -/

/-- What happens at the head of a term also happens at the head of the term in the context. -/
structure KeepsHead (env : Environment) (context : Term → Term) : Prop where
  step : ∀ {t s : Term}, HeadStep env t s → HeadStep env (context t) (context s)
  error : ∀ {t : Term} {e : ReductionError}, t.headStep env = .error e →
    (context t).headStep env = .error e

/-- In the context the term takes its steps first, and reduction goes on from what they lead to. -/
theorem KeepsHead.whnf_add (keeps : KeepsHead env context) (bodies : env.SpineBodies)
    (spine : t.inSpineForm) (chain : HeadChain env t k r) (fuel : Nat) :
    (context t).whnf env (k + fuel) =
      ((context r).whnf env fuel).mapError (·.withBudget (k + fuel)) := by
  rw [whnf, whnf, chain.whnfWithin_context bodies spine keeps.step]
  exact whnfWithin_eq_mapError _ _ _ _

/-- A constant that is not known is come upon in the context as well. -/
theorem KeepsHead.whnf_unknownConstant {fuel : Nat} {name : Name} (keeps : KeepsHead env context)
    (bodies : env.SpineBodies) (spine : t.inSpineForm)
    (failed : t.whnf env fuel = .error (.unknownConstant name)) :
    (context t).whnf env fuel = .error (.unknownConstant name) := by
  rw [whnf_eq_iff bodies spine, headOutcome_unknownConstant_iff] at failed
  obtain ⟨m, within, s, chain, unknown⟩ := failed
  obtain ⟨rest, rfl⟩ := Nat.exists_eq_add_of_le within
  have stuck := (headStep_eq_error_iff (chain.inSpineForm bodies spine)).mpr ⟨name, unknown, rfl⟩
  rw [whnf, chain.whnfWithin_context bodies spine keeps.step, whnfWithin, keeps.error stuck]

/-- A context that also keeps normal forms commutes with head reduction. -/
theorem KeepsHead.whnf_eq_map (keeps : KeepsHead env context) (bodies : env.SpineBodies)
    (normal : ∀ {t : Term}, t.inSpineForm → HeadNormal env t → HeadNormal env (context t))
    (spine : t.inSpineForm) (fuel : Nat) :
    (context t).whnf env fuel = (t.whnf env fuel).map context := by
  suffices within : ∀ budget remaining {t : Term}, t.inSpineForm →
      (context t).whnfWithin env budget remaining =
        (t.whnfWithin env budget remaining).map context from within fuel fuel spine
  intro budget remaining t spine
  induction remaining generalizing t with
  | zero =>
    rw [whnfWithin, whnfWithin]
    rcases stepped : t.headStep env with e | _ | next
    · rw [keeps.error stepped]
      rfl
    · rw [normal spine stepped]
      rfl
    · rw [headStep_iff.mpr (keeps.step (headStep_iff.mp stepped))]
      rfl
  | succ remaining ih =>
    rcases stepped : t.headStep env with e | _ | next
    · rw [whnfWithin, whnfWithin, stepped, keeps.error stepped]
      rfl
    · rw [whnfWithin, whnfWithin, stepped, normal spine stepped]
      rfl
    · have step := headStep_iff.mp stepped
      have spineNext := (step.step spine).inSpineForm bodies spine
      rw [step.whnfWithin, (keeps.step step).whnfWithin, ih spineNext]

theorem keepsHead_id : KeepsHead env fun t => t := ⟨id, id⟩

theorem keepsHead_mkApp (args : List Term) : KeepsHead env (·.mkApp args) where
  step step := step.mkApp args
  error failed := by
    obtain ⟨name, levels, first, split, noPrimitive, undefined, rfl⟩ :=
      headStep_eq_error_iff_exists.mp failed
    exact headStep_eq_error_iff_exists.mpr
      ⟨name, levels, _, spine_mkApp_of_spine split args, noPrimitive, undefined, rfl⟩

/-- A variable at the head may become a redex, but whatever else is at the head stays there. -/
theorem keepsHead_subst (bodies : env.ClosedBodies) (each : ∀ i, (σ i).inSpineForm) :
    KeepsHead env (subst σ) where
  step step := step.subst bodies each
  error failed := by
    obtain ⟨name, levels, args, split, noPrimitive, undefined, rfl⟩ :=
      headStep_eq_error_iff_exists.mp failed
    exact headStep_eq_error_iff_exists.mpr
      ⟨name, levels, _, spine_subst split rfl, noPrimitive, undefined, rfl⟩

theorem keepsHead_instantiate {values : List Term} (bodies : env.ClosedBodies)
    (each : ∀ value ∈ values, value.inSpineForm) : KeepsHead env (·.instantiate values) := by
  by_cases none : values = []
  · simpa only [none, instantiate_nil] using keepsHead_id
  · simpa only [instantiate_eq_subst _ none] using
      keepsHead_subst bodies (inSpineForm_instantiation each)

theorem keepsHead_lift (bodies : env.ClosedBodies) (cutoff amount : Nat) :
    KeepsHead env (·.lift cutoff amount) := by
  by_cases still : amount = 0
  · simpa only [still, lift_zero] using keepsHead_id
  · simp only [lift_eq_subst _ _ still]
    exact keepsHead_subst bodies fun i => inSpineForm_liftVar amount i cutoff

/-! ## Lifting -/

/-- Renaming the variables of a normal form makes no step possible. -/
theorem HeadNormal.subst_of_renames (renames : Renames σ) (spine : t.inSpineForm)
    (normal : HeadNormal env t) : HeadNormal env (t.subst σ) := by
  obtain ⟨ρ, rfl⟩ := renames
  obtain ⟨head, args, rfl, noApp, -, -⟩ := exists_spine spine
  rw [HeadNormal, headStep, spine_mkApp noApp] at normal
  rw [HeadNormal, headStep, subst_mkApp]
  cases head with
  | app inner first => cases noApp
  | lam x domain body =>
    rw [spine_mkApp rfl]
    cases args with
    | nil => rfl
    | cons arg args => cases normal
  | letIn x value type body => cases normal
  | const name levels =>
    rw [spine_mkApp rfl]
    cases primitive : env.primitive? name with
    | some kind => simp only [subst, primitive]
    | none =>
      cases defined : env.definition? name with
      | none => simp only [primitive, defined, reduceCtorEq] at normal
      | some d =>
        simp only [primitive, defined, Except.ok.injEq, Option.map_eq_none_iff] at normal
        simp only [subst, primitive, defined, normal, Option.map_none]
  | _ =>
    rw [spine_mkApp rfl]
    rfl

/-- Lifting commutes with head reduction, whatever the outcome is. -/
theorem whnf_lift (bodies : env.ClosedBodies) (spine : t.inSpineForm) (cutoff amount fuel : Nat) :
    (t.lift cutoff amount).whnf env fuel = (t.whnf env fuel).map (·.lift cutoff amount) := by
  refine (keepsHead_lift bodies cutoff amount).whnf_eq_map bodies.spineBodies ?_ spine fuel
  intro t spine normal
  by_cases still : amount = 0
  · simpa only [still, lift_zero] using normal
  · rw [lift_eq_subst _ _ still]
    refine normal.subst_of_renames ⟨fun i => if cutoff ≤ i then i + amount else i, ?_⟩ spine
    funext i
    simp only [liftVar, apply_ite var]

/-- Head reduction of a term that takes so many steps to its normal form goes on from the normal
form when both are instantiated, or applied to arguments: up to the budget that a failure names, the
outcome is the same, with as many units more for the steps. Lifting commutes with head reduction.
And a term with an unknown constant at the end of its steps is stuck there in any case. -/
theorem whnf_stable (bodies : env.ClosedBodies) (spine : t.inSpineForm) {values : List Term}
    (spineValues : ∀ value ∈ values, value.inSpineForm) (args : List Term) (cutoff amount : Nat) :
    (∀ k r fuel, NormalizesIn env t k r →
      (t.instantiate values).whnf env (k + fuel) =
          ((r.instantiate values).whnf env fuel).mapError (·.withBudget (k + fuel)) ∧
        (t.mkApp args).whnf env (k + fuel) =
          ((r.mkApp args).whnf env fuel).mapError (·.withBudget (k + fuel))) ∧
    (∀ fuel, (t.lift cutoff amount).whnf env fuel =
      (t.whnf env fuel).map (·.lift cutoff amount)) ∧
    ∀ fuel name, t.whnf env fuel = .error (.unknownConstant name) →
      (t.instantiate values).whnf env fuel = .error (.unknownConstant name) ∧
        (t.mkApp args).whnf env fuel = .error (.unknownConstant name) ∧
        (t.lift cutoff amount).whnf env fuel = .error (.unknownConstant name) := by
  have spineBodies := bodies.spineBodies
  have instantiated := keepsHead_instantiate bodies spineValues
  refine ⟨fun k r fuel normalizes => ?_, whnf_lift bodies spine cutoff amount,
    fun fuel name failed => ⟨?_, ?_, ?_⟩⟩
  · obtain ⟨chain, -⟩ := (normalizesIn_iff spineBodies spine).mp normalizes
    exact ⟨instantiated.whnf_add spineBodies spine chain fuel,
      (keepsHead_mkApp args).whnf_add spineBodies spine chain fuel⟩
  · exact instantiated.whnf_unknownConstant spineBodies spine failed
  · exact (keepsHead_mkApp args).whnf_unknownConstant spineBodies spine failed
  · rw [whnf_lift bodies spine, failed]
    rfl

end Term

namespace Prelude

open Term (NormalizesIn)

/-- The name for the numbers as argument of a local function, which is a variable. -/
def localFunction : Term :=
  .letIn ⟨"F"⟩ (.var 0) (Term.arrow smallTypes smallTypes)
    ((Term.var 0).mkApp [.const aliasName .empty])

/-- A list type that the environment does not have. -/
def unknownList : Term := (Term.const listName .empty).mkApp [.var 0]

/-- One step is taken from the budget before the function is given, and two more when it is the type
of lists under another name. An unknown constant stays unknown. -/
theorem whnf_stable_localFunction :
    aliases.ClosedBodies ∧ localFunction.inSpineForm ∧ unknownList.inSpineForm ∧
      (∀ value ∈ [Term.const functionName .empty], value.inSpineForm) ∧
      NormalizesIn aliases localFunction 1 ((Term.var 0).mkApp [.const aliasName .empty]) ∧
      (localFunction.instantiate [.const functionName .empty]).whnf aliases (1 + 1) =
        .error (.outOfFuel 2) ∧
      (localFunction.instantiate [.const functionName .empty]).whnf aliases (1 + 2) =
        .ok (applied listName [.const aliasName .empty]) ∧
      (localFunction.mkApp [.var 1]).whnf aliases (1 + 0) =
        .ok ((Term.var 0).mkApp [.const aliasName .empty, .var 1]) ∧
      (localFunction.lift 0 3).whnf aliases 1 =
        .ok ((Term.var 3).mkApp [.const aliasName .empty]) ∧
      (unknownList.instantiate [.const functionName .empty]).whnf aliases 0 =
        .error (.unknownConstant listName) := by
  have bodies := aliases_closedBodies
  have spine : localFunction.inSpineForm := rfl
  have spineUnknown : unknownList.inSpineForm := rfl
  have spineValues : ∀ value ∈ [Term.const functionName .empty], value.inSpineForm := by decide
  have normalizes : NormalizesIn aliases localFunction 1
      ((Term.var 0).mkApp [.const aliasName .empty]) := by
    refine ⟨rfl, fun fewer less => ?_⟩
    obtain rfl : fewer = 0 := by omega
    exact nofun
  obtain ⟨goesOn, lifted, -⟩ := Term.whnf_stable bodies spine spineValues [.var 1] 0 3
  obtain ⟨-, -, stuck⟩ := Term.whnf_stable bodies spineUnknown spineValues [.var 1] 0 3
  exact ⟨bodies, spine, spineUnknown, spineValues, normalizes, (goesOn 1 _ 1 normalizes).1,
    (goesOn 1 _ 2 normalizes).1, (goesOn 1 _ 0 normalizes).2, lifted 1, (stuck 0 listName rfl).1⟩

end Prelude

end Readback
