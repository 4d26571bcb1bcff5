import Readback.Term.Substitution

/-!
# Parallel substitution

Lifting and instantiation as cases of one operation that gives a term to every variable. It composes
as functions do, up to terms that are not in spine form: rebuilding applications brings them into
that form, so that not even the identical substitution leaves them as they are.

## Main definitions

* `Term.subst`, `Term.up` — parallel substitution, and a substitution under a binder
* `Term.inSpineForm` — no application is the head of another, and none is empty

## Main statements

* `Term.lift_eq_subst`, `Term.instantiate_eq_subst` — lifting and instantiation are substitutions
* `Term.subst_subst` — substitutions compose
* `Term.lift_lift` — lifting twice is lifting once
* `Term.subst_of_isClosed` — substitution leaves closed terms alone
* `Term.subst_instantiate` — substitution commutes with giving a value to a binder
* `Term.closedAbove_subst` — the scope of a substituted term
-/

namespace Readback.Term

variable {σ τ : Nat → Term} {t head : Term} {args : List Term} {d n : Nat}

/-- The substitution in the scope of one more binder. -/
def up (σ : Nat → Term) : Nat → Term
  | 0 => var 0
  | i + 1 => (σ i).lift 0 1

mutual

/-- Gives a term to every variable, and rebuilds the applications in spine form. -/
def subst (σ : Nat → Term) : Term → Term
  | var i => σ i
  | app head args => mkApp (subst σ head) (substAll σ args)
  | pi x domain codomain => pi x (subst σ domain) (subst (up σ) codomain)
  | lam x domain body => lam x (subst σ domain) (subst (up σ) body)
  | letIn x value type body => letIn x (subst σ value) (subst σ type) (subst (up σ) body)
  | t => t

/-- Substitutes in each of the terms. -/
def substAll (σ : Nat → Term) : List Term → List Term
  | [] => []
  | t :: ts => subst σ t :: substAll σ ts

end

theorem substAll_eq_map (σ : Nat → Term) (ts : List Term) : substAll σ ts = ts.map (subst σ) := by
  induction ts with
  | nil => rfl
  | cons t ts ih => rw [substAll, ih, List.map_cons]

@[simp] theorem subst_app (σ : Nat → Term) (head : Term) (args : List Term) :
    (app head args).subst σ = (head.subst σ).mkApp (args.map (subst σ)) := by
  rw [subst, substAll_eq_map]

/-- An application takes more arguments at the end of those that it has. -/
theorem mkApp_app (head : Term) (first args : List Term) :
    (app head first).mkApp args = app head (first ++ args) := by
  cases args with
  | nil => rw [mkApp_nil, List.append_nil]
  | cons arg args => rfl

@[simp] theorem subst_mkApp (σ : Nat → Term) (head : Term) (args : List Term) :
    (head.mkApp args).subst σ = (head.subst σ).mkApp (args.map (subst σ)) := by
  cases args with
  | nil => rw [mkApp_nil, List.map_nil, mkApp_nil]
  | cons arg args =>
    cases head with
    | app inner first => rw [mkApp_app, subst_app, subst_app, mkApp_mkApp, List.map_append]
    | _ => exact subst_app σ _ _

/-! ## Replacing variables -/

/-- A replacement that lifts under binders is a substitution. -/
theorem mapVars_eq_subst {f : Nat → Nat → Term}
    (coherent : ∀ d, up (fun i => f i d) = fun i => f i (d + 1)) (d : Nat) (t : Term) :
    mapVars f d t = t.subst fun i => f i d := by
  induction t using Term.induction generalizing d with
  | app head args ihHead ihArgs =>
    rw [mapVars, mapVarsList_eq_map, subst_app, ihHead]
    exact congrArg _ (List.map_congr_left fun arg member => ihArgs arg member d)
  | pi x domain codomain ihDomain ihCodomain =>
    rw [mapVars, subst, ihDomain, ihCodomain, coherent]
  | lam x domain body ihDomain ihBody => rw [mapVars, subst, ihDomain, ihBody, coherent]
  | letIn x value type body ihValue ihType ihBody =>
    rw [mapVars, subst, ihValue, ihType, ihBody, coherent]
  | _ => rfl

/-- Lifting moves the variables from the cutoff on. -/
theorem liftVar_of_le {i : Nat} (free : d ≤ i) : liftVar n i d = var (i + n) := if_pos free

/-- It leaves the others where they are. -/
theorem liftVar_of_lt {i : Nat} (bound : i < d) : liftVar n i d = var i :=
  if_neg (Nat.not_le_of_lt bound)

theorem up_liftVar (amount d : Nat) :
    up (fun i => liftVar amount i d) = fun i => liftVar amount i (d + 1) := by
  funext i
  cases i with
  | zero => simp [up, liftVar]
  | succ i =>
    by_cases bound : d ≤ i
    · simp [up, liftVar, bound, lift, mapVars, Nat.add_right_comm]
    · simp [up, liftVar, bound, lift, mapVars]

/-- Lifting is a substitution of variables. -/
theorem lift_eq_subst (t : Term) (cutoff : Nat) {amount : Nat} (moves : amount ≠ 0) :
    t.lift cutoff amount = t.subst fun i => liftVar amount i cutoff := by
  rw [lift, if_neg moves, mapVars_eq_subst (up_liftVar amount)]

/-- Making room for one binder. -/
theorem lift_one (t : Term) : t.lift 0 1 = t.subst fun i => var (i + 1) := by
  rw [lift_eq_subst t 0 Nat.one_ne_zero]
  rfl

/-! ## Composition -/

/-- The renaming in the scope of one more binder. -/
def upRen (ρ : Nat → Nat) : Nat → Nat
  | 0 => 0
  | i + 1 => ρ i + 1

theorem up_var (ρ : Nat → Nat) : up (fun i => var (ρ i)) = fun i => var (upRen ρ i) := by
  funext i
  cases i <;> rfl

/-- The substitution gives a variable to every variable. -/
def Renames (σ : Nat → Term) : Prop := ∃ ρ : Nat → Nat, σ = fun i => var (ρ i)

theorem Renames.up (renames : Renames σ) : Renames (up σ) := by
  obtain ⟨ρ, rfl⟩ := renames
  exact ⟨upRen ρ, up_var ρ⟩

/-- Substituting twice, for substitutions of a kind that composes under binders. -/
theorem subst_subst_of {P : (Nat → Term) → (Nat → Term) → Prop}
    (under : ∀ σ τ, P σ τ → P (up σ) (up τ) ∧
      (fun i => (up σ i).subst (up τ)) = up fun i => (σ i).subst τ) (t : Term) (kind : P σ τ) :
    (t.subst σ).subst τ = t.subst fun i => (σ i).subst τ := by
  induction t using Term.induction generalizing σ τ with
  | app head args ihHead ihArgs =>
    simp only [subst_app, subst_mkApp, ihHead kind, List.map_map]
    exact congrArg _ (List.map_congr_left fun arg member => ihArgs arg member kind)
  | pi x domain codomain ihDomain ihCodomain =>
    obtain ⟨kept, composes⟩ := under σ τ kind
    simp only [subst, ihDomain kind, ihCodomain kept, composes]
  | lam x domain body ihDomain ihBody =>
    obtain ⟨kept, composes⟩ := under σ τ kind
    simp only [subst, ihDomain kind, ihBody kept, composes]
  | letIn x value type body ihValue ihType ihBody =>
    obtain ⟨kept, composes⟩ := under σ τ kind
    simp only [subst, ihValue kind, ihType kind, ihBody kept, composes]
  | _ => rfl

/-- Substituting after renaming. -/
theorem subst_var_subst (ρ : Nat → Nat) (σ : Nat → Term) (t : Term) :
    (t.subst fun i => var (ρ i)).subst σ = t.subst fun i => σ (ρ i) := by
  refine subst_subst_of (P := fun σ _ => Renames σ) (fun σ τ renames => ⟨renames.up, ?_⟩) t ⟨ρ, rfl⟩
  obtain ⟨ρ, rfl⟩ := renames
  funext i
  cases i <;> rfl

/-- Renaming after substituting. -/
theorem subst_subst_var (σ : Nat → Term) (ρ : Nat → Nat) (t : Term) :
    (t.subst σ).subst (fun i => var (ρ i)) = t.subst fun i => (σ i).subst fun j => var (ρ j) := by
  refine subst_subst_of (P := fun _ τ => Renames τ) (fun σ τ renames => ⟨renames.up, ?_⟩) t ⟨ρ, rfl⟩
  obtain ⟨ρ, rfl⟩ := renames
  funext i
  cases i with
  | zero => rfl
  | succ i =>
    simp only [up_var, up, lift_one, subst_var_subst]
    rfl

/-- Substitutions compose. -/
theorem subst_subst (σ τ : Nat → Term) (t : Term) :
    (t.subst σ).subst τ = t.subst fun i => (σ i).subst τ := by
  refine subst_subst_of (P := fun _ _ => True) (fun σ τ _ => ⟨trivial, ?_⟩) t trivial
  funext i
  cases i with
  | zero => rfl
  | succ i => simp only [up, lift_one, subst_var_subst, subst_subst_var]

/-! ## Lifting -/

/-- Lifting twice is lifting once, if the second cutoff is within the room that was made. -/
theorem lift_lift (t : Term) {c c' a : Nat} (above : c ≤ c') (within : c' ≤ c + a) (b : Nat) :
    (t.lift c a).lift c' b = t.lift c (a + b) := by
  -- lifting by nothing rebuilds nothing and is no substitution, hence the first two cases
  by_cases noRoom : a = 0
  · have same : c' = c := by omega
    rw [noRoom, same, lift_zero, Nat.zero_add]
  by_cases noMore : b = 0
  · rw [noMore, lift_zero, Nat.add_zero]
  have moves : a + b ≠ 0 := by omega
  rw [lift_eq_subst t c noRoom, lift_eq_subst _ c' noMore, subst_subst, lift_eq_subst t c moves]
  congr 1
  funext i
  rcases Nat.lt_or_ge i c with bound | free
  · have bound' : i < c' := Nat.lt_of_lt_of_le bound above
    rw [liftVar_of_lt bound, subst, liftVar_of_lt bound', liftVar_of_lt bound]
  · have free' : c' ≤ i + a := by omega
    rw [liftVar_of_le free, subst, liftVar_of_le free', liftVar_of_le free, Nat.add_assoc]

/-! ## Instantiation -/

theorem up_instantiateVar (inner : List Term) (d : Nat) :
    up (fun i => instantiateVar inner i d) = fun i => instantiateVar inner i (d + 1) := by
  funext i
  cases i with
  | zero => rfl
  | succ i =>
    simp only [up, instantiateVar, Nat.add_lt_add_iff_right, Nat.add_sub_add_right]
    by_cases bound : i < d
    · rw [if_pos bound, if_pos bound]
      rfl
    · rw [if_neg bound, if_neg bound]
      cases found : inner[i - d]? with
      | some value => exact lift_lift value (Nat.le_refl 0) (Nat.zero_le _) 1
      | none =>
        have beyond : inner.length ≤ i - d := List.getElem?_eq_none_iff.mp found
        show var (i - inner.length + 1) = var (i + 1 - inner.length)
        congr 1
        omega

/-- The values for the outermost binders, from the innermost of them outwards. -/
def instantiation (values : List Term) (i : Nat) : Term := instantiateVar values.reverse i 0

/-- Instantiation is a substitution. -/
theorem instantiate_eq_subst (t : Term) {values : List Term} (some : values ≠ []) :
    t.instantiate values = t.subst (instantiation values) := by
  rw [instantiate, if_neg (by simpa using some), mapVars_eq_subst (up_instantiateVar _)]
  rfl

@[simp] theorem instantiation_zero (value : Term) : instantiation [value] 0 = value :=
  lift_zero value 0

@[simp] theorem instantiation_succ (value : Term) (i : Nat) :
    instantiation [value] (i + 1) = var i := rfl

/-- A variable becomes the value of its binder, or the variable without the binders that have
values. -/
theorem instantiation_eq_getD (values : List Term) (i : Nat) :
    instantiation values i = values.reverse[i]?.getD (var (i - values.length)) := by
  cases found : values.reverse[i]? <;> simp [instantiation, instantiateVar, found]

theorem instantiation_of_le {values : List Term} {i : Nat} (beyond : values.length ≤ i) :
    instantiation values i = var (i - values.length) := by
  have none : values.reverse[i]? = none := by simpa using beyond
  rw [instantiation_eq_getD, none, Option.getD_none]

/-! ## Spine form -/

/-- Whether the term is an application. -/
def isApp : Term → Bool
  | app _ _ => true
  | _ => false

mutual

/-- Whether no application in the term is empty or the head of another application. -/
def inSpineForm : Term → Bool
  | app head args => !head.isApp && !args.isEmpty && inSpineForm head && allInSpineForm args
  | pi _ domain codomain => inSpineForm domain && inSpineForm codomain
  | lam _ domain body => inSpineForm domain && inSpineForm body
  | letIn _ value type body => inSpineForm value && inSpineForm type && inSpineForm body
  | _ => true

/-- Whether each of the terms is in spine form. -/
def allInSpineForm : List Term → Bool
  | [] => true
  | t :: ts => inSpineForm t && allInSpineForm ts

end

theorem allInSpineForm_iff {ts : List Term} : allInSpineForm ts ↔ ∀ t ∈ ts, t.inSpineForm := by
  induction ts with
  | nil => simp [allInSpineForm]
  | cons t ts ih => simp [allInSpineForm, ih]

theorem inSpineForm_app :
    (app head args).inSpineForm ↔
      head.isApp = false ∧ args ≠ [] ∧ head.inSpineForm ∧ ∀ arg ∈ args, arg.inSpineForm := by
  simp [inSpineForm, allInSpineForm_iff, and_assoc]

/-- Applying in spine form. -/
theorem inSpineForm_mkApp (spineHead : head.inSpineForm)
    (spineArgs : ∀ arg ∈ args, arg.inSpineForm) : (head.mkApp args).inSpineForm := by
  cases args with
  | nil => rwa [mkApp_nil]
  | cons arg args =>
    cases head with
    | app inner first =>
      obtain ⟨noApp, some, spineInner, spineFirst⟩ := inSpineForm_app.1 spineHead
      rw [mkApp_app, inSpineForm_app]
      refine ⟨noApp, by simp, spineInner, fun t member => ?_⟩
      rcases List.mem_append.mp member with early | late
      · exact spineFirst t early
      · exact spineArgs t late
    | _ => exact inSpineForm_app.2 ⟨rfl, by simp, spineHead, spineArgs⟩

/-- Substitution brings a term into spine form, for substitutions of a kind that is kept under
binders. -/
theorem inSpineForm_subst_of {P : (Nat → Term) → Prop} (under : ∀ σ, P σ → P (up σ))
    (each : ∀ σ, P σ → ∀ i, (σ i).inSpineForm) (t : Term) (kind : P σ) :
    (t.subst σ).inSpineForm := by
  induction t using Term.induction generalizing σ with
  | var i => exact each σ kind i
  | app head args ihHead ihArgs =>
    rw [subst_app]
    refine inSpineForm_mkApp (ihHead kind) fun arg member => ?_
    obtain ⟨arg', member', rfl⟩ := List.mem_map.mp member
    exact ihArgs arg' member' kind
  | pi x domain codomain ihDomain ihCodomain =>
    simp only [subst, inSpineForm, ihDomain kind, ihCodomain (under σ kind), Bool.and_self]
  | lam x domain body ihDomain ihBody =>
    simp only [subst, inSpineForm, ihDomain kind, ihBody (under σ kind), Bool.and_self]
  | letIn x value type body ihValue ihType ihBody =>
    simp only [subst, inSpineForm, ihValue kind, ihType kind, ihBody (under σ kind), Bool.and_self]
  | _ => rfl

theorem inSpineForm_lift_one (t : Term) : (t.lift 0 1).inSpineForm := by
  rw [lift_one]
  refine inSpineForm_subst_of (P := Renames) (fun _ renames => renames.up) ?_ t ⟨_, rfl⟩
  rintro _ ⟨ρ, rfl⟩ i
  rfl

theorem inSpineForm_up (σ : Nat → Term) (i : Nat) : (up σ i).inSpineForm := by
  cases i with
  | zero => rfl
  | succ i => exact inSpineForm_lift_one (σ i)

/-- Substitution brings a term into spine form. -/
theorem inSpineForm_subst (t : Term) (each : ∀ i, (σ i).inSpineForm) :
    (t.subst σ).inSpineForm :=
  inSpineForm_subst_of (P := fun σ => ∀ i, (σ i).inSpineForm) (fun σ _ => inSpineForm_up σ)
    (fun _ spine => spine) t each

theorem inSpineForm_instantiation {values : List Term}
    (each : ∀ value ∈ values, value.inSpineForm) (i : Nat) :
    (instantiation values i).inSpineForm := by
  rw [instantiation_eq_getD]
  cases found : values.reverse[i]? with
  | some value => exact each value (List.mem_reverse.mp (List.mem_of_getElem? found))
  | none => rfl

theorem inSpineForm_liftVar (amount i d : Nat) : (liftVar amount i d).inSpineForm := by
  unfold liftVar
  split <;> rfl

/-- A lifting that moves variables brings a term into spine form. -/
theorem inSpineForm_lift_of_ne_zero (t : Term) (cutoff : Nat) {amount : Nat} (moves : amount ≠ 0) :
    (t.lift cutoff amount).inSpineForm := by
  rw [lift_eq_subst t cutoff moves]
  exact inSpineForm_subst t fun i => inSpineForm_liftVar amount i cutoff

/-- Values in spine form bring the term that they are given to into spine form. -/
theorem inSpineForm_instantiate_of_ne_nil {values : List Term} (t : Term) (some : values ≠ [])
    (each : ∀ value ∈ values, value.inSpineForm) : (t.instantiate values).inSpineForm := by
  rw [instantiate_eq_subst t some]
  exact inSpineForm_subst t (inSpineForm_instantiation each)

/-- Only the head of an application with arguments is looked at. -/
theorem mkApp_of_not_isApp (noApp : head.isApp = false) (some : args ≠ []) :
    head.mkApp args = app head args := by
  cases args with
  | nil => exact absurd rfl some
  | cons arg args =>
    cases head with
    | app inner first => cases noApp
    | _ => rfl

theorem spine_of_not_isApp (noApp : t.isApp = false) : t.spine = (t, []) := by
  cases t with
  | app head args => cases noApp
  | _ => rfl

/-- More arguments go behind those that a term has. -/
theorem spine_mkApp_eq (t : Term) (args : List Term) :
    (t.mkApp args).spine = (t.spine.1, t.spine.2 ++ args) := by
  cases args with
  | nil => rw [mkApp_nil, List.append_nil]
  | cons arg args =>
    cases t with
    | app head first =>
      rw [mkApp_app]
      rfl
    | _ => rfl

theorem spine_mkApp (noApp : head.isApp = false) (args : List Term) :
    (head.mkApp args).spine = (head, args) := by
  rw [spine_mkApp_eq, spine_of_not_isApp noApp]
  rfl

/-- Applications in spine form are what applying builds. -/
theorem mkApp_of_inSpineForm (spine : (app head args).inSpineForm) :
    head.mkApp args = app head args := by
  obtain ⟨noApp, some, -, -⟩ := inSpineForm_app.1 spine
  exact mkApp_of_not_isApp noApp some

/-- A term in spine form is a head that is no application with arguments, all in spine form. -/
theorem exists_spine (spine : t.inSpineForm) :
    ∃ (head : Term) (args : List Term), t = head.mkApp args ∧ head.isApp = false ∧
      head.inSpineForm ∧ ∀ arg ∈ args, arg.inSpineForm := by
  cases t with
  | app head args =>
    obtain ⟨noApp, -, spineHead, spineArgs⟩ := inSpineForm_app.1 spine
    exact ⟨head, args, (mkApp_of_inSpineForm spine).symm, noApp, spineHead, spineArgs⟩
  | _ => exact ⟨_, [], rfl, rfl, spine, by simp⟩

/-! ## Scope -/

theorem closedAbove_app :
    (app head args).closedAbove d ↔ head.closedAbove d ∧ ∀ arg ∈ args, arg.closedAbove d := by
  simp [closedAbove, closedAboveAll_eq_all]

@[simp] theorem closedAbove_mkApp :
    (head.mkApp args).closedAbove d ↔ head.closedAbove d ∧ ∀ arg ∈ args, arg.closedAbove d := by
  cases args with
  | nil => simp
  | cons arg args =>
    cases head with
    | app inner first =>
      simp only [mkApp_app, closedAbove_app, List.mem_append, or_imp, forall_and, and_assoc]
    | _ => exact closedAbove_app

/-- Only the variables of a term matter for what it becomes. -/
theorem subst_congr (closed : t.closedAbove d) (same : ∀ i < d, σ i = τ i) :
    t.subst σ = t.subst τ := by
  have under {σ τ : Nat → Term} {d : Nat} (same : ∀ i < d, σ i = τ i) :
      ∀ i < d + 1, up σ i = up τ i := by
    intro i bound
    cases i with
    | zero => rfl
    | succ i => rw [up, up, same i (Nat.lt_of_succ_lt_succ bound)]
  induction t using Term.induction generalizing σ τ d with
  | var i => exact same i (by simpa [closedAbove] using closed)
  | app head args ihHead ihArgs =>
    obtain ⟨closedHead, closedArgs⟩ := closedAbove_app.1 closed
    rw [subst_app, subst_app, ihHead closedHead same]
    exact congrArg _ (List.map_congr_left fun arg member =>
      ihArgs arg member (closedArgs arg member) same)
  | pi x domain codomain ihDomain ihCodomain =>
    simp only [closedAbove, Bool.and_eq_true] at closed
    rw [subst, subst, ihDomain closed.1 same, ihCodomain closed.2 (under same)]
  | lam x domain body ihDomain ihBody =>
    simp only [closedAbove, Bool.and_eq_true] at closed
    rw [subst, subst, ihDomain closed.1 same, ihBody closed.2 (under same)]
  | letIn x value type body ihValue ihType ihBody =>
    simp only [closedAbove, Bool.and_eq_true] at closed
    rw [subst, subst, ihValue closed.1.1 same, ihType closed.1.2 same, ihBody closed.2 (under same)]
  | _ => rfl

/-- In spine form the identical substitution changes nothing. -/
theorem subst_var (spine : t.inSpineForm) : t.subst var = t := by
  have under : up var = var := by
    funext i
    cases i <;> rfl
  induction t using Term.induction with
  | app head args ihHead ihArgs =>
    obtain ⟨-, -, spineHead, spineArgs⟩ := inSpineForm_app.1 spine
    have args_eq : args.map (subst var) = args := by
      refine (List.map_congr_left fun arg member => ?_).trans (List.map_id _)
      exact ihArgs arg member (spineArgs arg member)
    -- here spine form is needed: otherwise the application would be rebuilt as another one
    rw [subst_app, ihHead spineHead, args_eq, mkApp_of_inSpineForm spine]
  | pi x domain codomain ihDomain ihCodomain =>
    simp only [inSpineForm, Bool.and_eq_true] at spine
    rw [subst, under, ihDomain spine.1, ihCodomain spine.2]
  | lam x domain body ihDomain ihBody =>
    simp only [inSpineForm, Bool.and_eq_true] at spine
    rw [subst, under, ihDomain spine.1, ihBody spine.2]
  | letIn x value type body ihValue ihType ihBody =>
    simp only [inSpineForm, Bool.and_eq_true] at spine
    rw [subst, under, ihValue spine.1.1, ihType spine.1.2, ihBody spine.2]
  | _ => rfl

/-- Substitution leaves closed terms in spine form alone. -/
theorem subst_of_isClosed (spine : t.inSpineForm) (closed : t.isClosed) (σ : Nat → Term) :
    t.subst σ = t :=
  (subst_congr closed fun _ none => absurd none (Nat.not_lt_zero _)).trans (subst_var spine)

/-- Substitution commutes with giving a value to a binder. -/
theorem subst_instantiate (each : ∀ i, (σ i).inSpineForm) (body value : Term) :
    (body.instantiate [value]).subst σ = (body.subst (up σ)).instantiate [value.subst σ] := by
  rw [instantiate_eq_subst _ (List.cons_ne_nil _ _), instantiate_eq_subst _ (List.cons_ne_nil _ _),
    subst_subst, subst_subst]
  congr 1
  funext i
  cases i with
  | zero => simp [up, subst]
  | succ i =>
    rw [instantiation_succ, up, lift_one, subst_var_subst]
    exact (subst_var (each i)).symm

/-- A substituted term has the scope of what is given to its variables, for substitutions of a kind
that is kept under binders. -/
theorem closedAbove_subst_of {P : Nat → Nat → (Nat → Term) → Prop}
    (under : ∀ n d σ, P n d σ → P (n + 1) (d + 1) (up σ))
    (each : ∀ n d σ, P n d σ → ∀ i < n, (σ i).closedAbove d) (closed : t.closedAbove n)
    (kind : P n d σ) : (t.subst σ).closedAbove d := by
  induction t using Term.induction generalizing σ n d with
  | var i => exact each n d σ kind i (by simpa [closedAbove] using closed)
  | app head args ihHead ihArgs =>
    obtain ⟨closedHead, closedArgs⟩ := closedAbove_app.1 closed
    rw [subst_app, closedAbove_mkApp]
    refine ⟨ihHead closedHead kind, fun arg member => ?_⟩
    obtain ⟨arg', member', rfl⟩ := List.mem_map.mp member
    exact ihArgs arg' member' (closedArgs arg' member') kind
  | pi x domain codomain ihDomain ihCodomain =>
    simp only [subst, closedAbove, Bool.and_eq_true] at closed ⊢
    exact ⟨ihDomain closed.1 kind, ihCodomain closed.2 (under n d σ kind)⟩
  | lam x domain body ihDomain ihBody =>
    simp only [subst, closedAbove, Bool.and_eq_true] at closed ⊢
    exact ⟨ihDomain closed.1 kind, ihBody closed.2 (under n d σ kind)⟩
  | letIn x value type body ihValue ihType ihBody =>
    simp only [subst, closedAbove, Bool.and_eq_true] at closed ⊢
    exact ⟨⟨ihValue closed.1.1 kind, ihType closed.1.2 kind⟩, ihBody closed.2 (under n d σ kind)⟩
  | _ => rfl

theorem closedAbove_lift_one (closed : t.closedAbove d) : (t.lift 0 1).closedAbove (d + 1) := by
  rw [lift_one]
  -- as a renaming, since the general statement below needs this one under binders
  refine closedAbove_subst_of
    (P := fun n d σ => ∃ ρ : Nat → Nat, (σ = fun i => var (ρ i)) ∧ ∀ i < n, ρ i < d) ?_ ?_ closed
    ⟨_, rfl, fun i bound => Nat.succ_lt_succ bound⟩
  · rintro n d _ ⟨ρ, rfl, bounds⟩
    refine ⟨upRen ρ, up_var ρ, fun i bound => ?_⟩
    cases i with
    | zero => exact Nat.succ_pos d
    | succ i => exact Nat.succ_lt_succ (bounds i (Nat.lt_of_succ_lt_succ bound))
  · rintro n d _ ⟨ρ, rfl, bounds⟩ i bound
    simpa [closedAbove] using bounds i bound

/-- A substituted term has the scope of what is given to its variables. -/
theorem closedAbove_subst (closed : t.closedAbove n) (each : ∀ i < n, (σ i).closedAbove d) :
    (t.subst σ).closedAbove d := by
  refine closedAbove_subst_of (P := fun n d σ => ∀ i < n, (σ i).closedAbove d) ?_
    (fun _ _ _ each => each) closed each
  intro n d σ each i bound
  cases i with
  | zero => simp [up, closedAbove]
  | succ i => exact closedAbove_lift_one (each i (Nat.lt_of_succ_lt_succ bound))

theorem closedAbove_mono (closed : t.closedAbove n) (more : n ≤ d) : t.closedAbove d := by
  induction t using Term.induction generalizing n d with
  | var i =>
    simp only [closedAbove, decide_eq_true_iff] at closed ⊢
    exact Nat.lt_of_lt_of_le closed more
  | app head args ihHead ihArgs =>
    obtain ⟨closedHead, closedArgs⟩ := closedAbove_app.1 closed
    exact closedAbove_app.2 ⟨ihHead closedHead more, fun arg member =>
      ihArgs arg member (closedArgs arg member) more⟩
  | pi x domain codomain ihDomain ihCodomain =>
    simp only [closedAbove, Bool.and_eq_true] at closed ⊢
    exact ⟨ihDomain closed.1 more, ihCodomain closed.2 (Nat.succ_le_succ more)⟩
  | lam x domain body ihDomain ihBody =>
    simp only [closedAbove, Bool.and_eq_true] at closed ⊢
    exact ⟨ihDomain closed.1 more, ihBody closed.2 (Nat.succ_le_succ more)⟩
  | letIn x value type body ihValue ihType ihBody =>
    simp only [closedAbove, Bool.and_eq_true] at closed ⊢
    exact ⟨⟨ihValue closed.1.1 more, ihType closed.1.2 more⟩,
      ihBody closed.2 (Nat.succ_le_succ more)⟩
  | _ => rfl

/-- Instantiation takes as many binders out of scope as it gives values to. -/
theorem closedAbove_instantiate {values : List Term} (closed : t.closedAbove (values.length + d))
    (each : ∀ value ∈ values, value.closedAbove d) : (t.instantiate values).closedAbove d := by
  by_cases empty : values = []
  · subst empty
    rw [instantiate_nil]
    simpa using closed
  · rw [instantiate_eq_subst t empty]
    refine closedAbove_subst closed fun i bound => ?_
    cases found : values.reverse[i]? with
    | some value =>
      rw [instantiation_eq_getD, found, Option.getD_some]
      exact each value (List.mem_reverse.mp (List.mem_of_getElem? found))
    | none =>
      have beyond : values.length ≤ i := by simpa using found
      rw [instantiation_of_le beyond]
      simp only [closedAbove, decide_eq_true_iff]
      omega

end Readback.Term
