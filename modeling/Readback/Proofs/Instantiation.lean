import Readback.Prelude
import Readback.Proofs.Substitution

/-!
# Giving values to several binders

The binders of a telescope can be given their values all at once, or in parts, beginning with the
innermost. Values that are given first must make room for those that are given later. Lifting can be
done before instantiation as well as after it, and instantiation takes away the room that lifting
has made.

None of this depends on spine form, except where nothing is to be left of a lifting: to lift a term
and to take the lifting back rebuilds its applications.

## Main statements

* `Term.instantiate_instantiate`, `Term.instantiate_append` — instantiation in two parts
* `Term.lift_instantiate`, `Term.instantiate_lift` — instantiation after and before lifting
-/

namespace Readback

namespace Term

variable {t : Term} {values ws us : List Term} {i : Nat}

/-- The last values belong to the innermost binders. -/
theorem instantiation_append_of_lt (inner : i < us.length) :
    instantiation (ws ++ us) i = instantiation us i := by
  have bound : i < us.reverse.length := by simpa using inner
  simp only [instantiation_eq_getD, List.reverse_append, List.getElem?_append_left bound,
    List.getElem?_eq_getElem bound, Option.getD_some]

/-- The values before them belong to the binders further out. -/
theorem instantiation_append_of_le (outer : us.length ≤ i) :
    instantiation (ws ++ us) i = instantiation ws (i - us.length) := by
  have bound : us.reverse.length ≤ i := by simpa using outer
  have remaining : i - (ws.length + us.length) = i - us.length - ws.length := by omega
  simp only [instantiation_eq_getD, List.reverse_append, List.getElem?_append_right bound,
    List.length_reverse, List.length_append, remaining]

/-- Changing all values changes the value of each binder. -/
theorem instantiation_map_of_lt (f : Term → Term) (bound : i < values.length) :
    instantiation (values.map f) i = f (instantiation values i) := by
  have bound : i < values.reverse.length := by simpa using bound
  simp only [instantiation_eq_getD, ← List.map_reverse, List.getElem?_map,
    List.getElem?_eq_getElem bound, Option.map_some, Option.getD_some]

/-- The variables of all binders are replaced by the values. -/
theorem map_instantiation_range (values : List Term) :
    (List.range values.length).reverse.map (instantiation values) = values := by
  apply List.reverse_inj.mp
  rw [← List.map_reverse, List.reverse_reverse]
  apply List.ext_getElem?
  intro i
  by_cases bound : i < values.length
  · simp [instantiation_eq_getD, bound]
  · simp [bound]

/-- Two instantiations are one, with the values of the first one instantiated by the second. -/
theorem instantiate_instantiate (t : Term) (vs ws : List Term) :
    (t.instantiate vs).instantiate ws = t.instantiate (ws ++ vs.map (·.instantiate ws)) := by
  by_cases noInner : vs = []
  · simp [noInner]
  by_cases noOuter : ws = []
  · simp [noOuter]
  rw [instantiate_eq_subst t noInner, instantiate_eq_subst _ noOuter, subst_subst,
    instantiate_eq_subst t (by simp [noOuter])]
  congr 1
  funext i
  by_cases inner : i < vs.length
  · rw [instantiation_append_of_lt (by simpa), instantiation_map_of_lt _ inner,
      instantiate_eq_subst _ noOuter]
  · have outer : vs.length ≤ i := Nat.le_of_not_lt inner
    rw [instantiation_of_le outer, instantiation_append_of_le (by simpa), List.length_map]
    rfl

/-- Instantiation passes lifting, which then also lifts the values and leaves their binders
alone. -/
theorem lift_instantiate (t : Term) (vs : List Term) (cutoff amount : Nat) :
    (t.instantiate vs).lift cutoff amount =
      (t.lift (cutoff + vs.length) amount).instantiate (vs.map (·.lift cutoff amount)) := by
  by_cases still : amount = 0
  · simp [still]
  by_cases none : vs = []
  · simp [none]
  rw [instantiate_eq_subst t none, lift_eq_subst _ _ still, subst_subst, lift_eq_subst t _ still,
    instantiate_eq_subst _ (by simp [none]), subst_subst]
  congr 1
  funext i
  by_cases bound : i < vs.length
  · have below : i < cutoff + vs.length := by omega
    rw [liftVar_of_lt below, subst, instantiation_map_of_lt _ bound, lift_eq_subst _ _ still]
  · have outer : vs.length ≤ i := Nat.le_of_not_lt bound
    rw [instantiation_of_le outer, subst]
    rcases Nat.lt_or_ge i (cutoff + vs.length) with stays | moves
    · have stays' : i - vs.length < cutoff := by omega
      rw [liftVar_of_lt stays', liftVar_of_lt stays, subst, instantiation_of_le (by simpa),
        List.length_map]
    · have moves' : cutoff ≤ i - vs.length := by omega
      have outer' : vs.length ≤ i + amount := by omega
      rw [liftVar_of_le moves', liftVar_of_le moves, subst, instantiation_of_le (by simpa),
        List.length_map, Nat.sub_add_comm outer]

/-- Instantiation takes back the lifting over its binders. -/
theorem instantiate_lift (spine : t.inSpineForm) (vs : List Term) :
    (t.lift 0 vs.length).instantiate vs = t := by
  by_cases none : vs = []
  · simp [none]
  have room : vs.length ≠ 0 := by simpa using none
  rw [lift_eq_subst t 0 room, instantiate_eq_subst _ none, subst_subst]
  refine Eq.trans ?_ (subst_var spine)
  congr 1
  funext i
  rw [liftVar_of_le (Nat.zero_le i), subst, instantiation_of_le (Nat.le_add_left _ _),
    Nat.add_sub_cancel]

/-- The last values can be given first, if they make room for the others. -/
theorem instantiate_append (spine : ∀ u ∈ us, u.inSpineForm) (t : Term) (ws : List Term) :
    t.instantiate (ws ++ us) =
      (t.instantiate (us.map (·.lift 0 ws.length))).instantiate ws := by
  have unlifted : (us.map (·.lift 0 ws.length)).map (·.instantiate ws) = us := by
    rw [List.map_map]
    refine (List.map_congr_left fun u member => ?_).trans (List.map_id us)
    exact instantiate_lift (spine u member) ws
  rw [instantiate_instantiate, unlifted]

/-- What is instantiated twice is instantiated once. So the values for a telescope are given all at
once or in parts, the innermost first. -/
theorem instantiate_in_parts (t : Term) (ws us : List Term) :
    (∀ vs, (t.instantiate vs).instantiate ws =
      t.instantiate (ws ++ vs.map (·.instantiate ws))) ∧
    ((∀ u ∈ us, u.inSpineForm) →
      t.instantiate (ws ++ us) =
        (t.instantiate (us.map (·.lift 0 ws.length))).instantiate ws) :=
  ⟨fun vs => instantiate_instantiate t vs ws, fun spine => instantiate_append spine t ws⟩

/-- Lifting is done after instantiation or before it, and instantiation takes back a lifting. So
the codomain of a function type that does not depend on its argument is found again, whatever the
argument is. -/
theorem instantiate_beside_lift (t : Term) (vs : List Term) :
    (∀ cutoff amount, (t.instantiate vs).lift cutoff amount =
      (t.lift (cutoff + vs.length) amount).instantiate (vs.map (·.lift cutoff amount))) ∧
    (t.inSpineForm → (t.lift 0 vs.length).instantiate vs = t) ∧
    (t.inSpineForm → ∀ domain value, ∃ codomain,
      arrow domain t = pi ⟨"_"⟩ domain codomain ∧ codomain.instantiate [value] = t) := by
  refine ⟨lift_instantiate t vs, fun spine => instantiate_lift spine vs, ?_⟩
  intro spine domain value
  exact ⟨t.lift 0 1, rfl, instantiate_lift spine [value]⟩

end Term

namespace Prelude

/-- The pairs of a number and something else, as a family of types. -/
def pairsWithNat : Term := applied prodName [indTerm natName]

/-- The second field of a dependent pair is typed by the family at the first, here at a variable of
an outer context. The application is built anew when its head becomes one. -/
theorem instantiate_in_parts_existT :
    (∀ u ∈ [Term.var 0], u.inSpineForm) ∧
      ((Term.var 1).mkApp [.var 0]).instantiate ([smallTypes, pairsWithNat] ++ [.var 0]) =
        applied prodName [indTerm natName, .var 0] ∧
      (((Term.var 1).mkApp [.var 0]).instantiate [.var 2]).instantiate
          [smallTypes, pairsWithNat] = applied prodName [indTerm natName, .var 0] := by
  have spine : ∀ u ∈ [Term.var 0], u.inSpineForm := by decide
  obtain ⟨-, inParts⟩ := Term.instantiate_in_parts ((Term.var 1).mkApp [.var 0])
    [smallTypes, pairsWithNat] [.var 0]
  have once : ((Term.var 1).mkApp [.var 0]).instantiate ([smallTypes, pairsWithNat] ++ [.var 0]) =
      applied prodName [indTerm natName, .var 0] := rfl
  exact ⟨spine, once, (inParts spine).symm.trans once⟩

/-- The type of functions to the lists over a variable. -/
theorem instantiate_beside_lift_list :
    (applied listName [.var 0]).inSpineForm ∧
      ((applied listName [.var 0]).lift 0 2).instantiate [indTerm natName, indTerm boolName] =
        applied listName [.var 0] ∧
      ∃ codomain, Term.arrow (indTerm natName) (applied listName [.var 0]) =
          .pi ⟨"_"⟩ (indTerm natName) codomain ∧
        codomain.instantiate [nat 3] = applied listName [.var 0] := by
  have spine : (applied listName [.var 0]).inSpineForm := rfl
  obtain ⟨-, cancels, found⟩ := Term.instantiate_beside_lift (applied listName [.var 0])
    [indTerm natName, indTerm boolName]
  exact ⟨spine, cancels spine, found spine (indTerm natName) (nat 3)⟩

end Prelude

end Readback
