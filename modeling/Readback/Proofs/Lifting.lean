import Readback.Prelude
import Readback.Proofs.Substitution

/-!
# Lifting

Two liftings of a term are one if the second cutoff is within the room that the first one has made.
Otherwise they can be done in either order, where the cutoff further out moves with the room that is
made below it. This holds of every term, in spine form or not.

Lifting leaves a term alone exactly if no variable is free at the cutoff or above and the term is in
spine form. A single lifting by one tells whether this is so. Without spine form a term can be
closed and change nevertheless, since its applications are rebuilt.

## Main statements

* `Term.lift_lift_comm` — liftings at two places
* `Term.lift_eq_self_iff` — the terms that lifting leaves alone
* `Term.lifting_laws` — lifting twice, and lifting and instantiation of closed terms
-/

namespace Readback

namespace Term

variable {t : Term} {d k : Nat}

/-- Liftings at two places are exchanged, if the cutoff further out moves with the room. -/
theorem lift_lift_comm (t : Term) {c₁ c₂ : Nat} (below : c₁ ≤ c₂) (a b : Nat) :
    (t.lift c₂ b).lift c₁ a = (t.lift c₁ a).lift (c₂ + a) b := by
  by_cases noInner : a = 0
  · rw [noInner, lift_zero, lift_zero, Nat.add_zero]
  by_cases noOuter : b = 0
  · rw [noOuter, lift_zero, lift_zero]
  rw [lift_eq_subst t c₂ noOuter, lift_eq_subst _ c₁ noInner, lift_eq_subst t c₁ noInner,
    lift_eq_subst _ (c₂ + a) noOuter, subst_subst, subst_subst]
  congr 1
  funext i
  rcases Nat.lt_or_ge i c₂ with bound | outer
  · have bound' : i < c₂ + a := by omega
    have bound'' : i + a < c₂ + a := by omega
    rcases Nat.lt_or_ge i c₁ with stays | inner
    · rw [liftVar_of_lt bound, subst, liftVar_of_lt stays, subst, liftVar_of_lt bound']
    · rw [liftVar_of_lt bound, subst, liftVar_of_le inner, subst, liftVar_of_lt bound'']
  · have inner : c₁ ≤ i := Nat.le_trans below outer
    have inner' : c₁ ≤ i + b := by omega
    have outer' : c₂ + a ≤ i + a := by omega
    rw [liftVar_of_le outer, subst, liftVar_of_le inner', liftVar_of_le inner, subst,
      liftVar_of_le outer', Nat.add_right_comm]

/-! ## Closed terms -/

/-- Lifting leaves alone a term in spine form that is closed above the cutoff. -/
theorem lift_of_closedAbove (spine : t.inSpineForm) (closed : t.closedAbove d) (k : Nat) :
    t.lift d k = t := by
  by_cases still : k = 0
  · rw [still, lift_zero]
  rw [lift_eq_subst t d still]
  refine (subst_congr closed fun i bound => ?_).trans (subst_var spine)
  exact liftVar_of_lt bound

/-- Instantiation leaves alone a closed term in spine form. -/
theorem instantiate_of_isClosed (spine : t.inSpineForm) (closed : t.isClosed)
    (values : List Term) : t.instantiate values = t := by
  by_cases none : values = []
  · rw [none, instantiate_nil]
  rw [instantiate_eq_subst t none, subst_of_isClosed spine closed]

private theorem isApp_mapVars_liftVar (noApp : t.isApp = false) :
    (t.mapVars (liftVar k) d).isApp = false := by
  cases t with
  | var i =>
    rw [mapVars, liftVar]
    split <;> rfl
  | app head args => cases noApp
  | _ => rfl

/-- A term in spine form in which lifting moves no variable is closed. -/
private theorem closedAbove_of_mapVars_eq (moves : k ≠ 0) (spine : t.inSpineForm)
    (fixed : t.mapVars (liftVar k) d = t) : t.closedAbove d := by
  induction t using Term.induction generalizing d with
  | var i =>
    rw [mapVars] at fixed
    rcases Nat.lt_or_ge i d with bound | free
    · simpa [closedAbove] using bound
    · rw [liftVar_of_le free] at fixed
      exact absurd (Nat.add_eq_left.mp (Term.var.inj fixed)) moves
  | app head args ihHead ihArgs =>
    obtain ⟨noApp, some, spineHead, spineArgs⟩ := inSpineForm_app.1 spine
    rw [mapVars, mapVarsList_eq_map, mkApp_of_not_isApp (isApp_mapVars_liftVar noApp)
      (by simpa using some)] at fixed
    obtain ⟨fixedHead, fixedArgs⟩ := Term.app.inj fixed
    have fixedArgs : args.map (mapVars (liftVar k) d) = args.map id := by
      rw [fixedArgs, List.map_id]
    refine closedAbove_app.2 ⟨ihHead spineHead fixedHead, fun arg member => ?_⟩
    exact ihArgs arg member (spineArgs arg member) (List.map_inj_left.mp fixedArgs arg member)
  | pi x domain codomain ihDomain ihCodomain =>
    simp only [inSpineForm, Bool.and_eq_true] at spine
    obtain ⟨-, fixedDomain, fixedCodomain⟩ := Term.pi.inj fixed
    rw [closedAbove, ihDomain spine.1 fixedDomain, ihCodomain spine.2 fixedCodomain, Bool.and_self]
  | lam x domain body ihDomain ihBody =>
    simp only [inSpineForm, Bool.and_eq_true] at spine
    obtain ⟨-, fixedDomain, fixedBody⟩ := Term.lam.inj fixed
    rw [closedAbove, ihDomain spine.1 fixedDomain, ihBody spine.2 fixedBody, Bool.and_self]
  | letIn x value type body ihValue ihType ihBody =>
    simp only [inSpineForm, Bool.and_eq_true] at spine
    obtain ⟨-, fixedValue, fixedType, fixedBody⟩ := Term.letIn.inj fixed
    rw [closedAbove, ihValue spine.1.1 fixedValue, ihType spine.1.2 fixedType,
      ihBody spine.2 fixedBody, Bool.and_self, Bool.and_self]
  | _ => rfl

/-- Lifting leaves alone the closed terms in spine form, and no others. -/
theorem lift_eq_self_iff (moves : k ≠ 0) :
    t.lift d k = t ↔ t.inSpineForm ∧ t.closedAbove d := by
  constructor
  · intro fixed
    have spine : t.inSpineForm := fixed ▸ inSpineForm_lift_of_ne_zero t d moves
    rw [lift, if_neg moves] at fixed
    exact ⟨spine, closedAbove_of_mapVars_eq moves spine fixed⟩
  · rintro ⟨spine, closed⟩
    exact lift_of_closedAbove spine closed k

-- an empty application is closed, but it is rebuilt
example : (app (sort .set) []).closedAbove 0 ∧ (app (sort .set) []).lift 0 1 = sort .set :=
  ⟨rfl, rfl⟩

/-- Lifting twice is lifting once within the room that was made, and liftings at two places are
exchanged. A term in spine form is closed above a cutoff exactly if lifting it there by one leaves
it alone. Then it stays the same however far it is lifted, and a term without free variables also
whatever values it is given. -/
theorem lifting_laws (t : Term) :
    (∀ c c' a b, c ≤ c' → c' ≤ c + a → (t.lift c a).lift c' b = t.lift c (a + b)) ∧
    (∀ c₁ c₂ a b, c₁ ≤ c₂ → (t.lift c₂ b).lift c₁ a = (t.lift c₁ a).lift (c₂ + a) b) ∧
    (t.inSpineForm →
      (∀ d, t.closedAbove d ↔ t.lift d 1 = t) ∧
      (∀ d, t.closedAbove d → ∀ k, t.lift d k = t) ∧
      (t.closedAbove 0 → ∀ values, t.instantiate values = t)) := by
  refine ⟨fun c c' a b above within => lift_lift t above within b,
    fun c₁ c₂ a b below => lift_lift_comm t below a b, fun spine => ⟨fun d => ?_, ?_, ?_⟩⟩
  · rw [lift_eq_self_iff Nat.one_ne_zero]
    exact (and_iff_right spine).symm
  · intro d closed k
    exact lift_of_closedAbove spine closed k
  · intro closed values
    exact instantiate_of_isClosed spine closed values

end Term

namespace Prelude

/-- A function that applies its argument to a variable from outside. -/
def outerApplication : Term :=
  .lam ⟨"f"⟩ (Term.arrow (indTerm natName) (indTerm natName)) ((Term.var 0).mkApp [.var 1])

/-- The variable from outside moves with both liftings. It is the only one, so that lifting above it
changes nothing, and a number has none. -/
theorem lifting_laws_outerApplication :
    (0 ≤ 1 ∧ 1 ≤ 0 + 2 ∧ (outerApplication.lift 0 2).lift 1 3 = outerApplication.lift 0 5) ∧
      (outerApplication.lift 1 3).lift 0 2 = (outerApplication.lift 0 2).lift 3 3 ∧
      outerApplication.inSpineForm ∧ ¬ outerApplication.lift 0 1 = outerApplication ∧
      outerApplication.closedAbove 1 ∧ outerApplication.lift 1 4 = outerApplication ∧
      (nat 2).inSpineForm ∧ (nat 2).closedAbove 0 ∧ (nat 2).instantiate [.var 3] = nat 2 := by
  obtain ⟨once, exchanged, alone⟩ := Term.lifting_laws outerApplication
  have spine : outerApplication.inSpineForm := rfl
  obtain ⟨closed_iff, stays, -⟩ := alone spine
  have moved : ¬ outerApplication.lift 0 1 = outerApplication := by
    rw [← closed_iff 0]
    exact Bool.false_ne_true
  obtain ⟨-, -, aloneNumber⟩ := Term.lifting_laws (nat 2)
  have spineNumber : (nat 2).inSpineForm := rfl
  obtain ⟨-, -, filled⟩ := aloneNumber spineNumber
  exact ⟨⟨Nat.zero_le 1, Nat.le_succ 1, once 0 1 2 3 (Nat.zero_le 1) (Nat.le_succ 1)⟩,
    exchanged 0 1 2 3 (Nat.zero_le 1), spine, moved, rfl, stays 1 rfl 4,
    spineNumber, rfl, filled rfl [.var 3]⟩

end Prelude

end Readback
