import Readback.Proofs.HeadReduction
import Mathlib.Data.List.Forall2

/-!
# Reduction anywhere in a term

Reduction contracts one redex at any place: a function applied to an argument, a local definition,
or a constant that has a body. A step at the head can be put off: when another redex is contracted
first, what the step at the head would have left still reduces to what it leaves now.

## Main definitions

* `Environment.SpineBodies`, `Environment.ClosedBodies` — constants unfold to terms in spine form,
  and to closed ones
* `Term.Step`, `Term.Steps` — the contraction of one redex, and of any number of them

## Main statements

* `Term.Step.subst`, `Term.steps_subst` — reduction before and within a substitution
* `Term.HeadStep.commutes`, `Term.HeadSteps.commutes` — steps at the head can be put off
-/

namespace Readback

/-- The bodies that constants unfold to are in spine form. -/
def Environment.SpineBodies (env : Environment) : Prop :=
  ∀ ⦃name : Name⦄ ⦃body : Term⦄, env.Unfolds name body → body.inSpineForm

/-- The bodies that constants unfold to are closed and in spine form. -/
structure Environment.ClosedBodies (env : Environment) : Prop where
  closed : ∀ {name : Name} {body : Term}, env.Unfolds name body → body.isClosed
  spine : ∀ {name : Name} {body : Term}, env.Unfolds name body → body.inSpineForm

theorem Environment.ClosedBodies.spineBodies {env : Environment} (bodies : env.ClosedBodies) :
    env.SpineBodies :=
  fun _ _ unfolds => bodies.spine unfolds

/-- It is enough to look at the bodies of all constants, the primitive and the hidden ones too. -/
theorem Environment.closedBodies_of_definitions {env : Environment}
    (all : ∀ d ∈ env.definitions, ∀ body ∈ d.body, body.isClosed ∧ body.inSpineForm) :
    env.ClosedBodies where
  closed := by
    rintro name body ⟨-, d, found, hasBody⟩
    exact (all d (List.mem_of_find?_eq_some found) body hasBody).1
  spine := by
    rintro name body ⟨-, d, found, hasBody⟩
    exact (all d (List.mem_of_find?_eq_some found) body hasBody).2

theorem Environment.Unfolds.unique {env : Environment} {name : Name} {body body' : Term}
    (unfolds : env.Unfolds name body) (unfolds' : env.Unfolds name body') : body = body' := by
  obtain ⟨-, d, found, hasBody⟩ := unfolds
  obtain ⟨-, d', found', hasBody'⟩ := unfolds'
  obtain rfl := Option.some.inj (found.symm.trans found')
  exact Option.some.inj (hasBody.symm.trans hasBody')

namespace Term

variable {env : Environment} {σ τ : Nat → Term} {t t' s u head : Term} {args args' : List Term}

/-- The second term is the first one with one redex contracted. An application whose head is
contracted is rebuilt in spine form. -/
inductive Step (env : Environment) : Term → Term → Prop
  | beta (x : Name) (domain body arg : Term) (args : List Term) :
      Step env (app (lam x domain body) (arg :: args)) ((body.instantiate [arg]).mkApp args)
  | zeta (x : Name) (value type body : Term) :
      Step env (letIn x value type body) (body.instantiate [value])
  | delta {name : Name} {body : Term} (levels : Levels) (unfolds : env.Unfolds name body) :
      Step env (const name levels) body
  | appHead {head head' : Term} (args : List Term) (step : Step env head head') :
      Step env (app head args) (head'.mkApp args)
  | appArg (head : Term) (before : List Term) {arg arg' : Term} (after : List Term)
      (step : Step env arg arg') :
      Step env (app head (before ++ arg :: after)) (app head (before ++ arg' :: after))
  | piDomain (x : Name) {domain domain' : Term} (codomain : Term) (step : Step env domain domain') :
      Step env (pi x domain codomain) (pi x domain' codomain)
  | piCodomain (x : Name) (domain : Term) {codomain codomain' : Term}
      (step : Step env codomain codomain') : Step env (pi x domain codomain) (pi x domain codomain')
  | lamDomain (x : Name) {domain domain' : Term} (body : Term) (step : Step env domain domain') :
      Step env (lam x domain body) (lam x domain' body)
  | lamBody (x : Name) (domain : Term) {body body' : Term} (step : Step env body body') :
      Step env (lam x domain body) (lam x domain body')
  | letValue (x : Name) {value value' : Term} (type body : Term) (step : Step env value value') :
      Step env (letIn x value type body) (letIn x value' type body)
  | letType (x : Name) (value : Term) {type type' : Term} (body : Term)
      (step : Step env type type') : Step env (letIn x value type body) (letIn x value type' body)
  | letBody (x : Name) (value type : Term) {body body' : Term} (step : Step env body body') :
      Step env (letIn x value type body) (letIn x value type body')

/-- Redexes of the first term are contracted until the second one is reached. -/
abbrev Steps (env : Environment) : Term → Term → Prop := Relation.ReflTransGen (Step env)

/-! ## Applications -/

theorem Step.mkApp (step : Step env t t') (args : List Term) :
    Step env (t.mkApp args) (t'.mkApp args) := by
  cases args with
  | nil => rwa [mkApp_nil, mkApp_nil]
  | cons arg args =>
    by_cases isApp : t.isApp = false
    · rw [mkApp_of_not_isApp isApp (List.cons_ne_nil _ _)]
      exact .appHead _ step
    · -- no new head: the redex keeps its place in the spine, which gets longer
      cases step with
      | beta x domain body arg' args' =>
        rw [mkApp_app, mkApp_mkApp]
        exact .beta x domain body arg' _
      | appHead args' step =>
        rw [mkApp_app, mkApp_mkApp]
        exact .appHead _ step
      | appArg head before after step =>
        rw [mkApp_app, mkApp_app, List.append_assoc, List.append_assoc]
        exact .appArg head before _ step
      | _ => exact absurd rfl isApp

theorem Step.mkApp_arg {arg arg' : Term} (step : Step env arg arg') (t : Term)
    (before after : List Term) :
    Step env (t.mkApp (before ++ arg :: after)) (t.mkApp (before ++ arg' :: after)) := by
  by_cases isApp : t.isApp = false
  · rw [mkApp_of_not_isApp isApp (by simp), mkApp_of_not_isApp isApp (by simp)]
    exact .appArg t before after step
  · cases t with
    | app inner first =>
      rw [mkApp_app, mkApp_app, ← List.append_assoc, ← List.append_assoc]
      exact .appArg inner (first ++ before) after step
    | _ => exact absurd rfl isApp

/-- In an application a redex is the head with its first argument, or it is within the head or
within an argument. -/
theorem Step.of_mkApp (noApp : head.isApp = false) (step : Step env (head.mkApp args) u) :
    (∃ x domain body arg rest, head = lam x domain body ∧ args = arg :: rest ∧
        u = (body.instantiate [arg]).mkApp rest) ∨
      (∃ head', Step env head head' ∧ u = head'.mkApp args) ∨
      ∃ before arg arg' after, args = before ++ arg :: after ∧ Step env arg arg' ∧
        u = head.mkApp (before ++ arg' :: after) := by
  cases args with
  | nil =>
    rw [mkApp_nil] at step
    exact .inr (.inl ⟨u, step, (mkApp_nil u).symm⟩)
  | cons arg args =>
    rw [mkApp_of_not_isApp noApp (List.cons_ne_nil _ _)] at step
    generalize hargs : arg :: args = all at step
    cases step with
    | beta x domain body arg' rest => exact .inl ⟨x, domain, body, arg', rest, rfl, rfl, rfl⟩
    | appHead _ step => exact .inr (.inl ⟨_, step, rfl⟩)
    | appArg _ before after step =>
      exact .inr (.inr ⟨before, _, _, after, rfl, step,
        (mkApp_of_not_isApp noApp (by simp)).symm⟩)

/-- Reduction goes on within a context that single steps go on in. -/
theorem Steps.within {context : Term → Term} (steps : Steps env t t')
    (single : ∀ {a b : Term}, Step env a b → Step env (context a) (context b)) :
    Steps env (context t) (context t') :=
  Relation.ReflTransGen.lift context (fun _ _ => single) t t' steps

theorem Steps.mkApp (steps : Steps env t t') (args : List Term) :
    Steps env (t.mkApp args) (t'.mkApp args) :=
  steps.within fun step => step.mkApp args

/-- Arguments are reduced one after the other. -/
theorem steps_mkApp_args (t : Term) (before : List Term)
    (steps : List.Forall₂ (Steps env) args args') :
    Steps env (t.mkApp (before ++ args)) (t.mkApp (before ++ args')) := by
  induction steps generalizing before with
  | nil => exact .refl
  | @cons arg arg' args args' step steps ih =>
    have first : Steps env (t.mkApp (before ++ arg :: args)) (t.mkApp (before ++ arg' :: args)) :=
      step.within fun step => step.mkApp_arg t before args
    have others := ih (before ++ [arg'])
    rw [List.append_assoc, List.append_assoc] at others
    exact first.trans others

/-! ## Spine form -/

/-- Reduction keeps spine form. -/
theorem Step.inSpineForm (bodies : env.SpineBodies) (step : Step env t s) (spine : t.inSpineForm) :
    s.inSpineForm := by
  have instantiated {body value : Term} (spine : value.inSpineForm) :
      (body.instantiate [value]).inSpineForm :=
    inSpineForm_instantiate_of_ne_nil body (List.cons_ne_nil _ _) (by simpa using spine)
  induction step with
  | beta x domain body arg args =>
    obtain ⟨-, -, -, spineArgs⟩ := inSpineForm_app.1 spine
    obtain ⟨spineArg, spineRest⟩ := List.forall_mem_cons.mp spineArgs
    exact inSpineForm_mkApp (instantiated spineArg) spineRest
  | zeta x value type body =>
    simp only [Term.inSpineForm, Bool.and_eq_true] at spine
    exact instantiated spine.1.1
  | delta levels unfolds => exact bodies unfolds
  | appHead args step ih =>
    obtain ⟨-, -, spineHead, spineArgs⟩ := inSpineForm_app.1 spine
    exact inSpineForm_mkApp (ih spineHead) spineArgs
  | appArg head before after step ih =>
    obtain ⟨noApp, -, spineHead, spineArgs⟩ := inSpineForm_app.1 spine
    refine inSpineForm_app.2 ⟨noApp, by simp, spineHead, ?_⟩
    rw [List.forall_mem_append, List.forall_mem_cons] at spineArgs ⊢
    exact ⟨spineArgs.1, ih spineArgs.2.1, spineArgs.2.2⟩
  | piDomain x codomain step ih | piCodomain x domain step ih | lamDomain x body step ih
  | lamBody x domain step ih | letValue x type body step ih | letType x value body step ih
  | letBody x value type step ih =>
    simp only [Term.inSpineForm, Bool.and_eq_true] at spine ⊢
    simp only [spine, ih, and_self]

/-- A term in spine form is its head applied to its arguments. -/
theorem eq_mkApp_of_spine (spine : t.inSpineForm) (split : t.spine = (head, args)) :
    t = head.mkApp args ∧ head.isApp = false ∧ head.inSpineForm ∧
      ∀ arg ∈ args, arg.inSpineForm := by
  obtain ⟨head', args', rfl, noApp, spineHead, spineArgs⟩ := exists_spine spine
  obtain ⟨rfl, rfl⟩ := Prod.mk.inj ((spine_mkApp noApp args').symm.trans split)
  exact ⟨rfl, noApp, spineHead, spineArgs⟩

/-- Steps at the head are steps. -/
theorem HeadStep.step (spine : t.inSpineForm) (step : HeadStep env t s) : Step env t s := by
  cases step with
  | @beta x domain body arg args split =>
    rw [(eq_mkApp_of_spine spine split).1]
    exact .beta x domain body arg args
  | @zeta x value type body args split =>
    rw [(eq_mkApp_of_spine spine split).1]
    exact (Step.zeta x value type body).mkApp args
  | @delta name levels args body split unfolds =>
    rw [(eq_mkApp_of_spine spine split).1]
    exact (Step.delta levels unfolds).mkApp args

theorem Steps.inSpineForm (bodies : env.ClosedBodies) (steps : Steps env t s)
    (spine : t.inSpineForm) : s.inSpineForm := by
  induction steps with
  | refl => exact spine
  | tail _ step ih => exact step.inSpineForm bodies.spineBodies ih

theorem HeadSteps.steps (bodies : env.ClosedBodies) (spine : t.inSpineForm)
    (steps : HeadSteps env t s) : Steps env t s := by
  induction steps with
  | refl => exact .refl
  | tail _ step ih => exact ih.tail (step.step (ih.inSpineForm bodies spine))

/-! ## Reduction and substitution -/

/-- A redex stays one under a substitution. -/
theorem Step.subst (bodies : env.ClosedBodies) (step : Step env t s)
    (each : ∀ i, (σ i).inSpineForm) : Step env (t.subst σ) (s.subst σ) := by
  induction step generalizing σ with
  | beta x domain body arg args =>
    rw [subst_mkApp, subst_instantiate each, subst_app]
    exact .beta x _ _ _ _
  | zeta x value type body =>
    rw [subst_instantiate each]
    exact .zeta x _ _ _
  | delta levels unfolds =>
    rw [subst_of_isClosed (bodies.spine unfolds) (bodies.closed unfolds)]
    exact .delta levels unfolds
  | appHead args step ih =>
    rw [subst_app, subst_mkApp]
    exact (ih each).mkApp _
  | appArg head before after step ih =>
    rw [subst_app, subst_app, List.map_append, List.map_append, List.map_cons, List.map_cons]
    exact (ih each).mkApp_arg _ _ _
  | piDomain x codomain step ih => exact .piDomain x _ (ih each)
  | piCodomain x domain step ih => exact .piCodomain x _ (ih (inSpineForm_up σ))
  | lamDomain x body step ih => exact .lamDomain x _ (ih each)
  | lamBody x domain step ih => exact .lamBody x _ (ih (inSpineForm_up σ))
  | letValue x type body step ih => exact .letValue x _ _ (ih each)
  | letType x value body step ih => exact .letType x _ _ (ih each)
  | letBody x value type step ih => exact .letBody x _ _ (ih (inSpineForm_up σ))

theorem Step.lift_one (bodies : env.ClosedBodies) (step : Step env t s) :
    Step env (t.lift 0 1) (s.lift 0 1) := by
  rw [Term.lift_one, Term.lift_one]
  exact step.subst bodies fun _ => rfl

/-- What is substituted can be reduced wherever it stands. -/
theorem steps_subst (bodies : env.ClosedBodies) (t : Term) (each : ∀ i, Steps env (σ i) (τ i)) :
    Steps env (t.subst σ) (t.subst τ) := by
  have under {σ τ : Nat → Term} (each : ∀ i, Steps env (σ i) (τ i)) (i : Nat) :
      Steps env (up σ i) (up τ i) := by
    cases i with
    | zero => exact .refl
    | succ i => exact (each i).within fun step => step.lift_one bodies
  induction t using Term.induction generalizing σ τ with
  | var i => exact each i
  | app head args ihHead ihArgs =>
    rw [subst_app, subst_app]
    refine ((ihHead each).mkApp _).trans (steps_mkApp_args _ [] ?_)
    rw [List.forall₂_map_left_iff, List.forall₂_map_right_iff, List.forall₂_same]
    exact fun arg member => ihArgs arg member each
  | pi x domain codomain ihDomain ihCodomain =>
    have first := (ihDomain each).within fun step => step.piDomain x (codomain.subst (up σ))
    have second := (ihCodomain (under each)).within fun step => step.piCodomain x (domain.subst τ)
    exact first.trans second
  | lam x domain body ihDomain ihBody =>
    have first := (ihDomain each).within fun step => step.lamDomain x (body.subst (up σ))
    have second := (ihBody (under each)).within fun step => step.lamBody x (domain.subst τ)
    exact first.trans second
  | letIn x value type body ihValue ihType ihBody =>
    have first := (ihValue each).within fun step =>
      step.letValue x (type.subst σ) (body.subst (up σ))
    have second := (ihType each).within fun step =>
      step.letType x (value.subst τ) (body.subst (up σ))
    have third := (ihBody (under each)).within fun step =>
      step.letBody x (value.subst τ) (type.subst τ)
    exact (first.trans second).trans third
  | _ => exact .refl

/-- Reducing the scope of a binder that is given a value. -/
theorem Step.instantiate {body body' value : Term} (bodies : env.ClosedBodies)
    (step : Step env body body') (spine : value.inSpineForm) :
    Step env (body.instantiate [value]) (body'.instantiate [value]) := by
  rw [instantiate_eq_subst _ (List.cons_ne_nil _ _), instantiate_eq_subst _ (List.cons_ne_nil _ _)]
  exact step.subst bodies (inSpineForm_instantiation (by simpa using spine))

/-- Reducing the value that a binder is given. -/
theorem Step.instantiate_value {value value' : Term} (bodies : env.ClosedBodies)
    (step : Step env value value') (body : Term) :
    Steps env (body.instantiate [value]) (body.instantiate [value']) := by
  rw [instantiate_eq_subst _ (List.cons_ne_nil _ _), instantiate_eq_subst _ (List.cons_ne_nil _ _)]
  refine steps_subst bodies body fun i => ?_
  cases i with
  | zero => exact .single (by simpa using step)
  | succ i => exact .refl

/-! ## Steps at the head can be put off -/

theorem HeadStep.of_beta (x : Name) (domain body arg : Term) (args : List Term) :
    HeadStep env ((lam x domain body).mkApp (arg :: args)) ((body.instantiate [arg]).mkApp args) :=
  .beta (spine_mkApp rfl _)

theorem HeadStep.of_zeta (x : Name) (value type body : Term) (args : List Term) :
    HeadStep env ((letIn x value type body).mkApp args) ((body.instantiate [value]).mkApp args) :=
  .zeta (spine_mkApp rfl _)

theorem HeadStep.of_delta {name : Name} {body : Term} (levels : Levels) (args : List Term)
    (unfolds : env.Unfolds name body) :
    HeadStep env ((const name levels).mkApp args) (body.mkApp args) :=
  .delta (spine_mkApp rfl _) unfolds

/-- Another redex contracted before the step at the head leaves a term that the step still leads
from, unless it was the redex at the head. -/
theorem HeadStep.commutes (bodies : env.ClosedBodies) (spine : t.inSpineForm)
    (headStep : HeadStep env t s) (step : Step env t u) :
    ∃ u', Steps env s u' ∧ (u = u' ∨ HeadStep env u u') := by
  cases headStep with
  | @beta x domain body arg args split =>
    obtain ⟨rfl, noApp, -, spineArgs⟩ := eq_mkApp_of_spine spine split
    have spineArg := spineArgs arg List.mem_cons_self
    rcases Step.of_mkApp noApp step with ⟨_, _, _, _, _, same, sameArgs, rfl⟩ |
      ⟨head', inner, rfl⟩ | ⟨before, changed, changed', after, sameArgs, inner, rfl⟩
    · obtain ⟨-, -, rfl⟩ := lam.inj same
      obtain ⟨rfl, rfl⟩ := List.cons.inj sameArgs
      exact ⟨_, .refl, .inl rfl⟩
    · cases inner with
      | lamDomain _ _ inner => exact ⟨_, .refl, .inr (.of_beta _ _ _ _ _)⟩
      | lamBody _ _ inner =>
        have reduced := (inner.instantiate bodies spineArg).mkApp args
        exact ⟨_, .single reduced, .inr (.of_beta _ _ _ _ _)⟩
    · -- the argument that is used up may have been reduced, or one of those that are kept
      cases before with
      | nil =>
        obtain ⟨rfl, rfl⟩ := List.cons.inj sameArgs
        have reduced := (inner.instantiate_value bodies body).mkApp args
        exact ⟨_, reduced, .inr (.of_beta _ _ _ _ _)⟩
      | cons first before =>
        obtain ⟨rfl, rfl⟩ := List.cons.inj sameArgs
        have reduced := inner.mkApp_arg (body.instantiate [arg]) before after
        exact ⟨_, .single reduced, .inr (.of_beta _ _ _ _ _)⟩
  | @zeta x value type body args split =>
    obtain ⟨rfl, noApp, spineLet, -⟩ := eq_mkApp_of_spine spine split
    simp only [Term.inSpineForm, Bool.and_eq_true] at spineLet
    rcases Step.of_mkApp noApp step with ⟨_, _, _, _, _, same, -⟩ |
      ⟨head', inner, rfl⟩ | ⟨before, changed, changed', after, rfl, inner, rfl⟩
    · cases same
    · cases inner with
      | zeta => exact ⟨_, .refl, .inl rfl⟩
      | letValue _ _ _ inner =>
        have reduced := (inner.instantiate_value bodies body).mkApp args
        exact ⟨_, reduced, .inr (.of_zeta _ _ _ _ _)⟩
      | letType _ _ _ inner => exact ⟨_, .refl, .inr (.of_zeta _ _ _ _ _)⟩
      | letBody _ _ _ inner =>
        have reduced := (inner.instantiate bodies spineLet.1.1).mkApp args
        exact ⟨_, .single reduced, .inr (.of_zeta _ _ _ _ _)⟩
    · have reduced := inner.mkApp_arg (body.instantiate [value]) before after
      exact ⟨_, .single reduced, .inr (.of_zeta _ _ _ _ _)⟩
  | @delta name levels args body split unfolds =>
    obtain ⟨rfl, noApp, -, -⟩ := eq_mkApp_of_spine spine split
    rcases Step.of_mkApp noApp step with ⟨_, _, _, _, _, same, -⟩ |
      ⟨head', inner, rfl⟩ | ⟨before, changed, changed', after, rfl, inner, rfl⟩
    · cases same
    · cases inner with
      | delta _ unfolds' =>
        rw [unfolds.unique unfolds']
        exact ⟨_, .refl, .inl rfl⟩
    · have reduced := inner.mkApp_arg body before after
      exact ⟨_, .single reduced, .inr (.of_delta _ _ unfolds)⟩

/-- One step at the head is put off behind any number of others. -/
theorem HeadStep.commutes_steps (bodies : env.ClosedBodies) (spine : t.inSpineForm)
    (headStep : HeadStep env t s) (steps : Steps env t u) :
    ∃ u', Steps env s u' ∧ (u = u' ∨ HeadStep env u u') := by
  induction steps with
  | refl => exact ⟨s, .refl, .inr headStep⟩
  | @tail v w steps step ih =>
    obtain ⟨v', reduced, rfl | late⟩ := ih
    · exact ⟨w, reduced.tail step, .inl rfl⟩
    · have spineV := Steps.inSpineForm bodies steps spine
      obtain ⟨w', reduced', later⟩ := late.commutes bodies spineV step
      exact ⟨w', reduced.trans reduced', later⟩

/-- Steps at the head reach a term that reduction has not missed: whatever a term reduces to takes
steps at its head to a reduct of it. -/
theorem HeadSteps.commutes (bodies : env.ClosedBodies) (spine : t.inSpineForm)
    (headSteps : HeadSteps env t s) (steps : Steps env t u) :
    ∃ u', Steps env s u' ∧ HeadSteps env u u' := by
  induction headSteps with
  | refl => exact ⟨u, steps, .refl⟩
  | @tail v w headSteps headStep ih =>
    obtain ⟨v', reduced, late⟩ := ih
    have spineV := Steps.inSpineForm bodies (HeadSteps.steps bodies spine headSteps) spine
    obtain ⟨w', reduced', rfl | later⟩ := headStep.commutes_steps bodies spineV reduced
    · exact ⟨v', reduced', late⟩
    · exact ⟨w', reduced', late.tail later⟩

end Term

end Readback
