import Readback.Prelude
import Readback.Proofs.Classification
import Readback.Proofs.Standardization

/-!
# Types that reduce to each other

The head of a readable type does not depend on how the type is written: if any reduction leads to an
inductive or to a primitive type, then so do the steps at the head. Only the parameters may be
written in another way, and they reduce to the same terms.

## Main definitions

* `Term.Rigid` — the heads that readable types are read off
* `Readable.Alike` — readable types that differ only in how their parameters are written

## Main statements

* `Term.exists_headSteps_of_steps` — head reduction finds a rigid head if any reduction does
* `Readable.ReadOff.exists_alike` — what is read off a head whose arguments are written otherwise
-/

namespace Readback

variable {env : Environment}

namespace Term

variable {t u head : Term} {args args' : List Term}

/-- The head of a readable type: an inductive type or a primitive type. -/
inductive Rigid (env : Environment) : Term → Prop
  | inductiveType (name : Name) (levels : Levels) : Rigid env (ind name levels)
  | primitive {name : Name} {kind : PrimitiveKind} (levels : Levels)
      (found : env.primitive? name = some kind) : Rigid env (const name levels)

theorem Rigid.isAtom (rigid : Rigid env head) : head.isAtom := by
  cases rigid <;> rfl

theorem Rigid.not_isApp (rigid : Rigid env head) : head.isApp = false := by
  cases rigid <;> rfl

theorem Rigid.not_step (rigid : Rigid env head) : ¬ Step env head u := by
  intro step
  cases rigid with
  | inductiveType name levels => cases step
  | primitive levels found =>
    cases step with
    | delta _ unfolds => cases unfolds.1.symm.trans found

/-- A term with a rigid head is in weak head normal form. -/
theorem Rigid.headNormal (rigid : Rigid env head) (args : List Term) :
    HeadNormal env (head.mkApp args) := by
  unfold HeadNormal headStep
  rw [spine_mkApp rigid.not_isApp]
  cases rigid with
  | inductiveType name levels => rfl
  | primitive levels found => simp only [found]

/-- Relating something else to an element of a list. -/
theorem forall₂_replace {α β : Type} {R : α → β → Prop} {xs : List α} {before after : List β}
    {y y' : β} (related : List.Forall₂ R xs (before ++ y :: after)) (also : ∀ x, R x y → R x y') :
    List.Forall₂ R xs (before ++ y' :: after) := by
  induction before generalizing xs with
  | nil =>
    cases related with
    | cons first rest => exact .cons (also _ first) rest
  | cons z before ih =>
    cases related with
    | cons first rest => exact .cons first (ih rest)

/-- Reduction keeps a rigid head and reduces its arguments one by one. -/
theorem Rigid.exists_of_steps (rigid : Rigid env head) (steps : Steps env (head.mkApp args) u) :
    ∃ args', u = head.mkApp args' ∧ List.Forall₂ (Steps env) args args' := by
  induction steps with
  | refl => exact ⟨args, rfl, List.forall₂_same.mpr fun _ _ => .refl⟩
  | tail _ step ih =>
    obtain ⟨args', rfl, reduced⟩ := ih
    rcases Step.of_mkApp rigid.not_isApp step with ⟨x, domain, body, arg, rest, same, -⟩ |
      ⟨head', inner, -⟩ | ⟨before, arg, arg', after, rfl, inner, rfl⟩
    · cases rigid <;> cases same
    · exact absurd inner rigid.not_step
    · exact ⟨_, rfl, forall₂_replace reduced fun _ steps => steps.tail inner⟩

/-- Whatever a term reduces to has the rigid head that steps at the head find in the term. -/
theorem HeadSteps.exists_of_steps (bodies : env.ClosedBodies) (spine : t.inSpineForm)
    (rigid : Rigid env head) (headSteps : HeadSteps env t (head.mkApp args))
    (steps : Steps env t u) :
    ∃ args', HeadSteps env u (head.mkApp args') ∧ List.Forall₂ (Steps env) args args' := by
  obtain ⟨u', reduced, late⟩ := HeadSteps.commutes bodies spine headSteps steps
  obtain ⟨args', rfl, each⟩ := rigid.exists_of_steps reduced
  exact ⟨args', late, each⟩

/-- Steps at the head find a rigid head that any reduction leads to. -/
theorem exists_headSteps_of_steps (bodies : env.ClosedBodies) (spine : t.inSpineForm)
    (rigid : Rigid env head) (steps : Steps env t u)
    (headSteps : HeadSteps env u (head.mkApp args)) :
    ∃ args', HeadSteps env t (head.mkApp args') ∧ List.Forall₂ (Steps env) args' args := by
  have spineU := Steps.inSpineForm bodies steps spine
  -- in standard order the steps at the head come first, and end with the head that is sought
  have standard := Steps.standard bodies spine
    (steps.trans (HeadSteps.steps bodies spineU headSteps))
  obtain ⟨args', found⟩ := standard.exists_headSteps (spine_mkApp rigid.not_isApp args) rigid.isAtom
  -- the arguments that are found reduce to those that the other term has at its head
  obtain ⟨others, late, each⟩ := HeadSteps.exists_of_steps bodies spine rigid found steps
  have same := HeadSteps.unique late (rigid.headNormal others) headSteps (rigid.headNormal args)
  have spines := congrArg Term.spine same
  rw [spine_mkApp rigid.not_isApp, spine_mkApp rigid.not_isApp] at spines
  obtain ⟨-, rfl⟩ := Prod.mk.inj spines
  exact ⟨args', found, each⟩

end Term

namespace Readable

open Term (Steps Rigid)

/-- The readable types are of one head and one layout, and have parameters that reduce to the same
terms. -/
inductive Alike (env : Environment) : Readable → Readable → Prop
  | inductiveType (head : Name) (levels : Levels) (layout : Layout) {params params' : List Term}
      (joined : List.Forall₂ (Relation.Join (Steps env)) params params') :
      Alike env (.inductiveType ⟨head, levels, params, layout⟩)
        (.inductiveType ⟨head, levels, params', layout⟩)
  | primitive (head : Name) (kind : PrimitiveKind) (levels : Levels) {params params' : List Term}
      (joined : List.Forall₂ (Relation.Join (Steps env)) params params') :
      Alike env (.primitive ⟨head, kind, levels, params⟩) (.primitive ⟨head, kind, levels, params'⟩)

theorem Alike.symm {r r' : Readable} (alike : Alike env r r') : Alike env r' r := by
  have flipped {ts us : List Term} (joined : List.Forall₂ (Relation.Join (Steps env)) ts us) :
      List.Forall₂ (Relation.Join (Steps env)) us ts :=
    (joined.imp fun _ _ ⟨c, left, right⟩ => ⟨c, right, left⟩).flip
  cases alike with
  | inductiveType head levels layout joined =>
    exact .inductiveType head levels layout (flipped joined)
  | primitive head kind levels joined => exact .primitive head kind levels (flipped joined)

/-- A readable type is read off a rigid head. -/
theorem ReadOff.exists_rigid {t : Term} {r : Readable} (spine : t.inSpineForm)
    (readOff : ReadOff env t r) : ∃ head args, Rigid env head ∧ t = head.mkApp args := by
  cases readOff with
  | inductiveType split found enough supported =>
    exact ⟨_, _, .inductiveType _ _, (Term.eq_mkApp_of_spine spine split).1⟩
  | primitive split found =>
    exact ⟨_, _, .primitive _ found, (Term.eq_mkApp_of_spine spine split).1⟩

/-- For arguments that reduce to the same, readable types are alike. -/
theorem ReadOff.exists_alike {head : Term} {args args' : List Term} {r : Readable}
    (rigid : Rigid env head) (readOff : ReadOff env (head.mkApp args) r)
    (joined : List.Forall₂ (Relation.Join (Steps env)) args args') :
    ∃ r', ReadOff env (head.mkApp args') r' ∧ Alike env r r' := by
  have same := Term.spine_mkApp rigid.not_isApp args
  cases readOff with
  | @inductiveType name levels _ d split found enough supported =>
    obtain ⟨rfl, rfl⟩ := Prod.mk.inj (same.symm.trans split)
    rw [joined.length_eq] at enough
    exact ⟨_, .inductiveType (Term.spine_mkApp rfl args') found enough supported,
      .inductiveType name levels _ (List.forall₂_take _ joined)⟩
  | @primitive name levels _ kind split found =>
    obtain ⟨rfl, rfl⟩ := Prod.mk.inj (same.symm.trans split)
    exact ⟨_, .primitive (Term.spine_mkApp rfl args') found, .primitive name kind levels joined⟩

end Readable

namespace Prelude

open Term (Step Steps)

/-- The name of a type that is another one. -/
def aliasName : Name := ⟨"N"⟩

/-- The name of a function between types. -/
def functionName : Name := ⟨"L"⟩

/-- The function that answers the type of lists. -/
def listFunction : Term := .lam ⟨"A"⟩ smallTypes (applied listName [.var 0])

/-- The prelude with another name for the natural numbers and one for the type of lists. -/
def aliases : Environment :=
  (environment.declare (.constant ⟨aliasName, smallTypes, some (indTerm natName)⟩)).declare
    (.constant ⟨functionName, Term.arrow smallTypes smallTypes, some listFunction⟩)

theorem aliases_closedBodies : aliases.ClosedBodies :=
  Environment.closedBodies_of_definitions (by decide)

/-- The lists of numbers under these names. -/
def aliasedList : Term := (Term.const functionName .empty).mkApp [.const aliasName .empty]

/-- The argument is unfolded first, which is not at the head. -/
theorem steps_aliasedList : Steps aliases aliasedList (applied listName [indTerm natName]) := by
  have argument : Step aliases aliasedList
      ((Term.const functionName .empty).mkApp [indTerm natName]) :=
    (Step.delta .empty ⟨rfl, _, rfl, rfl⟩).mkApp_arg _ [] []
  have function : Step aliases ((Term.const functionName .empty).mkApp [indTerm natName])
      (listFunction.mkApp [indTerm natName]) :=
    (Step.delta .empty ⟨rfl, _, rfl, rfl⟩).mkApp _
  have applied : Step aliases (listFunction.mkApp [indTerm natName])
      (applied listName [indTerm natName]) :=
    .beta ⟨"A"⟩ smallTypes (Prelude.applied listName [.var 0]) (indTerm natName) []
  exact ((Relation.ReflTransGen.single argument).tail function).tail applied

end Prelude

end Readback
