import Readback.Proofs.Reduction

/-!
# Standardization

A reduction can be put in standard order: first the steps at the head, as many as are needed, and
then standard reductions within the parts of the term that they lead to. So head reduction finds the
head of a term whenever any reduction does.

## Main definitions

* `Term.Standard` — the second term is reached by a standard reduction

## Main statements

* `Term.Standard.absorb` — a standard reduction takes in a step behind it
* `Term.Steps.standard` — every reduction can be put in standard order
* `Term.Standard.exists_headSteps` — the steps at the head find a head that does not reduce
-/

namespace Readback.Term

variable {env : Environment} {σ τ : Nat → Term} {t s u u' head head' : Term}
  {args args' more more' : List Term}

/-- Whether the term has no parts. -/
def isAtom : Term → Bool
  | app _ _ | pi _ _ _ | lam _ _ _ | letIn _ _ _ _ => false
  | _ => true

mutual

/-- The second term is reached from the first one by steps at the head, followed by standard
reductions of the head and of the arguments that these have led to. -/
inductive Standard (env : Environment) : Term → Term → Prop
  | headFirst {t s u : Term} (step : HeadStep env t s) (rest : Standard env s u) : Standard env t u
  | inParts {head head' : Term} {args args' : List Term} (heads : StandardHead env head head')
      (arguments : StandardAll env args args') : Standard env (head.mkApp args) (head'.mkApp args')

/-- The heads are of one kind, and the parts of the second are reached by standard reductions. -/
inductive StandardHead (env : Environment) : Term → Term → Prop
  | atom {t : Term} (atomic : t.isAtom) : StandardHead env t t
  | pi (x : Name) {domain domain' codomain codomain' : Term} (domains : Standard env domain domain')
      (codomains : Standard env codomain codomain') :
      StandardHead env (pi x domain codomain) (pi x domain' codomain')
  | lam (x : Name) {domain domain' body body' : Term} (domains : Standard env domain domain')
      (bodies : Standard env body body') :
      StandardHead env (lam x domain body) (lam x domain' body')
  | letIn (x : Name) {value value' type type' body body' : Term}
      (values : Standard env value value') (types : Standard env type type')
      (bodies : Standard env body body') :
      StandardHead env (letIn x value type body) (letIn x value' type' body')

/-- Each of the second terms is reached from the first one in its place. -/
inductive StandardAll (env : Environment) : List Term → List Term → Prop
  | nil : StandardAll env [] []
  | cons {arg arg' : Term} {args args' : List Term} (first : Standard env arg arg')
      (rest : StandardAll env args args') : StandardAll env (arg :: args) (arg' :: args')

end

theorem StandardHead.not_isApp (heads : StandardHead env head head') :
    head.isApp = false ∧ head'.isApp = false := by
  cases heads with
  | atom atomic =>
    cases head with
    | app _ _ => cases atomic
    | _ => exact ⟨rfl, rfl⟩
  | _ => exact ⟨rfl, rfl⟩

/-- Heads without arguments. -/
theorem StandardHead.standard (heads : StandardHead env head head') : Standard env head head' := by
  have alone := Standard.inParts heads .nil
  rwa [mkApp_nil, mkApp_nil] at alone

theorem StandardAll.append : ∀ {args args' : List Term}, StandardAll env args args' →
    StandardAll env more more' → StandardAll env (args ++ more) (args' ++ more')
  | _, _, .nil, others => others
  | _, _, .cons first rest, others => .cons first (rest.append others)

theorem StandardAll.refl (each : ∀ arg ∈ args, Standard env arg arg) :
    StandardAll env args args := by
  induction args with
  | nil => exact .nil
  | cons arg args ih =>
    obtain ⟨first, rest⟩ := List.forall_mem_cons.mp each
    exact .cons first (ih rest)

/-- A term in spine form is reached from itself. -/
theorem Standard.refl (spine : t.inSpineForm) : Standard env t t := by
  -- the head of an application is not only reached from itself, but is a head that is
  have both : Standard env t t ∧ (t.isApp = false → StandardHead env t t) := by
    have alone {t : Term} (heads : StandardHead env t t) :
        Standard env t t ∧ (t.isApp = false → StandardHead env t t) :=
      ⟨heads.standard, fun _ => heads⟩
    induction t using Term.induction with
    | app head args ihHead ihArgs =>
      obtain ⟨noApp, some, spineHead, spineArgs⟩ := inSpineForm_app.1 spine
      have heads := (ihHead spineHead).2 noApp
      have arguments := StandardAll.refl fun arg member =>
        (ihArgs arg member (spineArgs arg member)).1
      have applied := Standard.inParts heads arguments
      rw [mkApp_of_inSpineForm spine] at applied
      exact ⟨applied, fun noApp => by cases noApp⟩
    | pi x domain codomain ihDomain ihCodomain =>
      simp only [inSpineForm, Bool.and_eq_true] at spine
      exact alone (.pi x (ihDomain spine.1).1 (ihCodomain spine.2).1)
    | lam x domain body ihDomain ihBody =>
      simp only [inSpineForm, Bool.and_eq_true] at spine
      exact alone (.lam x (ihDomain spine.1).1 (ihBody spine.2).1)
    | letIn x value type body ihValue ihType ihBody =>
      simp only [inSpineForm, Bool.and_eq_true] at spine
      exact alone (.letIn x (ihValue spine.1.1).1 (ihType spine.1.2).1 (ihBody spine.2).1)
    | _ => exact alone (.atom rfl)
  exact both.1

/-! ## Applications and substitution -/

theorem spine_mkApp_of_spine (split : t.spine = (head, args)) (more : List Term) :
    (t.mkApp more).spine = (head, args ++ more) := by
  rw [spine_mkApp_eq, split]

theorem HeadStep.mkApp (step : HeadStep env t s) (more : List Term) :
    HeadStep env (t.mkApp more) (s.mkApp more) := by
  cases step with
  | beta split =>
    rw [mkApp_mkApp]
    exact .beta (spine_mkApp_of_spine split more)
  | zeta split =>
    rw [mkApp_mkApp]
    exact .zeta (spine_mkApp_of_spine split more)
  | delta split unfolds =>
    rw [mkApp_mkApp]
    exact .delta (spine_mkApp_of_spine split more) unfolds

/-- A head that a substitution makes no application keeps its arguments. -/
theorem spine_subst (split : t.spine = (head, args)) (noApp : (head.subst σ).isApp = false) :
    (t.subst σ).spine = (head.subst σ, args.map (subst σ)) := by
  cases t with
  | app inner first =>
    obtain ⟨rfl, rfl⟩ := Prod.mk.inj split
    rw [subst_app]
    exact spine_mkApp noApp _
  | _ =>
    obtain ⟨rfl, rfl⟩ := Prod.mk.inj split
    exact spine_of_not_isApp noApp

/-- A step at the head stays one under a substitution. -/
theorem HeadStep.subst (bodies : env.ClosedBodies) (step : HeadStep env t s)
    (each : ∀ i, (σ i).inSpineForm) : HeadStep env (t.subst σ) (s.subst σ) := by
  cases step with
  | beta split =>
    rw [subst_mkApp, subst_instantiate each]
    exact .beta (spine_subst split rfl)
  | zeta split =>
    rw [subst_mkApp, subst_instantiate each]
    exact .zeta (spine_subst split rfl)
  | delta split unfolds =>
    rw [subst_mkApp, subst_of_isClosed (bodies.spine unfolds) (bodies.closed unfolds)]
    exact .delta (spine_subst split rfl) unfolds

/-- Standard reductions of a term and of its arguments. -/
theorem Standard.mkApp : ∀ {t u : Term}, Standard env t u → StandardAll env more more' →
    Standard env (t.mkApp more) (u.mkApp more')
  | _, _, .headFirst step rest, arguments => .headFirst (step.mkApp _) (rest.mkApp arguments)
  | _, _, .inParts heads first, arguments => by
    rw [mkApp_mkApp, mkApp_mkApp]
    exact .inParts heads (first.append arguments)

section

variable {P : (Nat → Term) → (Nat → Term) → Prop}

mutual

/-- Standard reductions under substitutions of a kind that is kept under binders. -/
theorem Standard.subst_of (bodies : env.ClosedBodies) (under : ∀ σ τ, P σ τ → P (up σ) (up τ))
    (each : ∀ σ τ, P σ τ → ∀ i, Standard env (σ i) (τ i) ∧ (σ i).inSpineForm) :
    ∀ {t u : Term} {σ τ : Nat → Term}, Standard env t u → P σ τ →
      Standard env (t.subst σ) (u.subst τ)
  | _, _, σ, τ, .headFirst step rest, kind =>
    .headFirst (step.subst bodies fun i => (each σ τ kind i).2)
      (rest.subst_of bodies under each kind)
  | _, _, _, _, .inParts heads arguments, kind => by
    rw [subst_mkApp, subst_mkApp]
    exact (heads.subst_of bodies under each kind).mkApp (arguments.subst_of bodies under each kind)

/-- A variable becomes a term that the substitution of the other side is reached from. -/
theorem StandardHead.subst_of (bodies : env.ClosedBodies)
    (under : ∀ σ τ, P σ τ → P (up σ) (up τ))
    (each : ∀ σ τ, P σ τ → ∀ i, Standard env (σ i) (τ i) ∧ (σ i).inSpineForm) :
    ∀ {t u : Term} {σ τ : Nat → Term}, StandardHead env t u → P σ τ →
      Standard env (t.subst σ) (u.subst τ)
  | t, _, σ, τ, .atom atomic, kind => by
    cases t with
    | var i => exact (each σ τ kind i).1
    | app _ _ | pi _ _ _ | lam _ _ _ | letIn _ _ _ _ => cases atomic
    | _ => exact (StandardHead.atom rfl).standard
  | _, _, σ, τ, .pi x domains codomains, kind =>
    (StandardHead.pi x (domains.subst_of bodies under each kind)
      (codomains.subst_of bodies under each (under σ τ kind))).standard
  | _, _, σ, τ, .lam x domains inner, kind =>
    (StandardHead.lam x (domains.subst_of bodies under each kind)
      (inner.subst_of bodies under each (under σ τ kind))).standard
  | _, _, σ, τ, .letIn x values types inner, kind =>
    (StandardHead.letIn x (values.subst_of bodies under each kind)
      (types.subst_of bodies under each kind)
      (inner.subst_of bodies under each (under σ τ kind))).standard

theorem StandardAll.subst_of (bodies : env.ClosedBodies)
    (under : ∀ σ τ, P σ τ → P (up σ) (up τ))
    (each : ∀ σ τ, P σ τ → ∀ i, Standard env (σ i) (τ i) ∧ (σ i).inSpineForm) :
    ∀ {args args' : List Term} {σ τ : Nat → Term}, StandardAll env args args' → P σ τ →
      StandardAll env (args.map (subst σ)) (args'.map (subst τ))
  | _, _, _, _, .nil, _ => .nil
  | _, _, _, _, .cons first rest, kind =>
    .cons (first.subst_of bodies under each kind) (rest.subst_of bodies under each kind)

end

end

theorem Standard.lift_one (bodies : env.ClosedBodies) (standard : Standard env t u) :
    Standard env (t.lift 0 1) (u.lift 0 1) := by
  rw [Term.lift_one, Term.lift_one]
  refine standard.subst_of (P := fun σ τ => σ = τ ∧ Renames σ) bodies ?_ ?_ ⟨rfl, _, rfl⟩
  · rintro σ _ ⟨rfl, renames⟩
    exact ⟨rfl, renames.up⟩
  · rintro σ _ ⟨rfl, ρ, rfl⟩ i
    exact ⟨.refl rfl, rfl⟩

/-- Standard reductions of a term and of what is substituted in it. -/
theorem Standard.subst (bodies : env.ClosedBodies) (standard : Standard env t u)
    (each : ∀ i, Standard env (σ i) (τ i) ∧ (σ i).inSpineForm) :
    Standard env (t.subst σ) (u.subst τ) := by
  refine standard.subst_of
    (P := fun σ τ => ∀ i, Standard env (σ i) (τ i) ∧ (σ i).inSpineForm) bodies ?_
    (fun _ _ each => each) each
  intro σ τ each i
  refine ⟨?_, inSpineForm_up σ i⟩
  cases i with
  | zero => exact .refl rfl
  | succ i => exact (each i).1.lift_one bodies

theorem Standard.instantiate {value value' : Term} (bodies : env.ClosedBodies)
    (standard : Standard env t u) (values : Standard env value value')
    (spine : value.inSpineForm) :
    Standard env (t.instantiate [value]) (u.instantiate [value']) := by
  rw [instantiate_eq_subst _ (List.cons_ne_nil _ _), instantiate_eq_subst _ (List.cons_ne_nil _ _)]
  refine standard.subst bodies fun i => ⟨?_, inSpineForm_instantiation (by simpa using spine) i⟩
  cases i with
  | zero => rwa [instantiation_zero, instantiation_zero]
  | succ i => exact .refl rfl

/-! ## Putting a reduction in order -/

mutual

/-- A standard reduction takes in a step behind it. -/
theorem Standard.absorb (bodies : env.ClosedBodies) : ∀ {t u u' : Term}, Standard env t u →
    t.inSpineForm → Step env u u' → Standard env t u'
  | _, _, _, .headFirst step rest, spine, redex =>
    .headFirst step
      (rest.absorb bodies ((step.step spine).inSpineForm bodies.spineBodies spine) redex)
  | _, _, _, .inParts heads arguments, spine, redex => by
    obtain ⟨noApp, noApp'⟩ := heads.not_isApp
    obtain ⟨-, -, spineHead, spineArgs⟩ := eq_mkApp_of_spine spine (spine_mkApp noApp _)
    rcases Step.of_mkApp noApp' redex with ⟨x, domain, body, arg, rest, rfl, rfl, rfl⟩ |
      ⟨head', inner, rfl⟩ | ⟨before, arg, arg', after, place, inner, rfl⟩
    · cases heads with
      | atom atomic => cases atomic
      | lam _ domains inner =>
        cases arguments with
        | cons first others =>
          have spineFirst := spineArgs _ List.mem_cons_self
          refine .headFirst (.of_beta _ _ _ _ _) ?_
          exact (inner.instantiate bodies first spineFirst).mkApp others
    · exact (heads.absorb bodies spineHead inner).mkApp arguments
    · exact .inParts heads (arguments.absorb bodies spineArgs place inner)

/-- A step within the head is put behind those of its part, or it is done first. -/
theorem StandardHead.absorb (bodies : env.ClosedBodies) : ∀ {t u u' : Term},
    StandardHead env t u → t.inSpineForm → Step env u u' → Standard env t u'
  | _, _, _, .atom atomic, _, redex => by
    cases redex with
    | delta levels unfolds =>
      -- nothing came before the redex, so it is a step at the head
      refine .headFirst ?_ (.refl (bodies.spine unfolds))
      exact .delta (spine_of_not_isApp rfl) unfolds
    | _ => cases atomic
  | _, _, _, .pi x domains codomains, spine, redex => by
    simp only [inSpineForm, Bool.and_eq_true] at spine
    cases redex with
    | piDomain _ _ step =>
      exact (StandardHead.pi x (domains.absorb bodies spine.1 step) codomains).standard
    | piCodomain _ _ step =>
      exact (StandardHead.pi x domains (codomains.absorb bodies spine.2 step)).standard
  | _, _, _, .lam x domains inner, spine, redex => by
    simp only [inSpineForm, Bool.and_eq_true] at spine
    cases redex with
    | lamDomain _ _ step =>
      exact (StandardHead.lam x (domains.absorb bodies spine.1 step) inner).standard
    | lamBody _ _ step =>
      exact (StandardHead.lam x domains (inner.absorb bodies spine.2 step)).standard
  | _, _, _, .letIn x values types inner, spine, redex => by
    simp only [inSpineForm, Bool.and_eq_true] at spine
    cases redex with
    | zeta =>
      -- the step is done first, and what came before it in the value goes on in the body
      refine .headFirst ?_ (inner.instantiate bodies values spine.1.1)
      exact .zeta (spine_of_not_isApp rfl)
    | letValue _ _ _ step =>
      exact (StandardHead.letIn x (values.absorb bodies spine.1.1 step) types inner).standard
    | letType _ _ _ step =>
      exact (StandardHead.letIn x values (types.absorb bodies spine.1.2 step) inner).standard
    | letBody _ _ _ step =>
      exact (StandardHead.letIn x values types (inner.absorb bodies spine.2 step)).standard

theorem StandardAll.absorb (bodies : env.ClosedBodies) : ∀ {args args' before after : List Term}
    {arg arg' : Term}, StandardAll env args args' → (∀ arg ∈ args, arg.inSpineForm) →
      args' = before ++ arg :: after → Step env arg arg' →
      StandardAll env args (before ++ arg' :: after)
  | _, _, before, _, _, _, .nil, _, place, _ => by cases before <;> cases place
  | _, _, before, _, _, _, .cons first rest, spine, place, step => by
    obtain ⟨spineFirst, spineRest⟩ := List.forall_mem_cons.mp spine
    cases before with
    | nil =>
      obtain ⟨same, sameRest⟩ := List.cons.inj place
      rw [sameRest] at rest
      exact .cons (first.absorb bodies spineFirst (same ▸ step)) rest
    | cons other before =>
      obtain ⟨same, placeRest⟩ := List.cons.inj place
      rw [same] at first
      exact .cons first (rest.absorb bodies spineRest placeRest step)

end

/-- Every reduction can be put in standard order. -/
theorem Steps.standard (bodies : env.ClosedBodies) (spine : t.inSpineForm) (steps : Steps env t u) :
    Standard env t u := by
  induction steps with
  | refl => exact .refl spine
  | tail _ step ih => exact ih.absorb bodies spine step

/-- The steps at the head find an atomic head that a standard reduction leads to. -/
theorem Standard.exists_headSteps : ∀ {t u : Term}, Standard env t u →
    u.spine = (head, args) → head.isAtom → ∃ args', HeadSteps env t (head.mkApp args')
  | _, _, .headFirst step rest, split, atomic => by
    obtain ⟨args', steps⟩ := rest.exists_headSteps split atomic
    exact ⟨args', .head step steps⟩
  | _, _, .inParts heads arguments, split, atomic => by
    obtain ⟨rfl, rfl⟩ := Prod.mk.inj ((spine_mkApp heads.not_isApp.2 _).symm.trans split)
    cases heads with
    | atom atomic => exact ⟨_, .refl⟩
    | _ => cases atomic

end Readback.Term
