import Readback.Proofs.Conversion

/-!
# Reduction within a budget

Contraction at the head of a term looks for the redex under all the applications that the term is
built of, as if no term were in spine form. Where terms are in spine form, this is what the function
does that sees one application only, and it pays one unit of its budget for each contraction.

So the budget decides between three outcomes: a weak head normal form, a constant that the
environment does not have, and a chain of contractions that is longer than the budget.

## Main definitions

* `Term.HeadContracts`, `Term.HeadChain` — one contraction at the head, and a chain of so many
* `Term.HeadUnknown`, `Term.WeakHeadNormal` — where no chain goes on
* `Term.HeadOutcome` — what contractions at the head lead to within a budget

## Main statements

* `Term.HeadChain.whnfWithin` — a chain is paid from the budget
* `Term.exists_headOutcome`, `Term.whnf_eq_iff` — there is one outcome, and the function finds it
* `Term.HeadChain.whnf_eq` — the budgets that are large enough for a chain
* `Term.whnf_spends_budget` — the answers of the function in terms of chains
-/

namespace Readback

namespace Term

variable {env : Environment} {t s r : Term} {m n : Nat}

/-- The head of a term, under all the applications around it. -/
def innermostHead : Term → Term
  | app head _ => innermostHead head
  | t => t

/-- The redex at the head of a term is contracted, however deep the head stands in applications. The
arguments that the redex does not use up are kept. -/
inductive HeadContracts (env : Environment) : Term → Term → Prop
  | beta (x : Name) (domain body arg : Term) (args : List Term) :
      HeadContracts env (app (lam x domain body) (arg :: args))
        ((body.instantiate [arg]).mkApp args)
  | zeta (x : Name) (value type body : Term) :
      HeadContracts env (letIn x value type body) (body.instantiate [value])
  | delta {name : Name} {body : Term} (levels : Levels) (unfolds : env.Unfolds name body) :
      HeadContracts env (const name levels) body
  | applied {head head' : Term} (args : List Term) (contracts : HeadContracts env head head') :
      HeadContracts env (app head args) (head'.mkApp args)

/-- The head of the term is a constant that the environment has under no kind of name. -/
structure HeadUnknown (env : Environment) (name : Name) (t : Term) : Prop where
  head : ∃ levels, t.innermostHead = const name levels
  noPrimitive : env.primitive? name = none
  undefined : env.definition? name = none

/-- Nothing is left to do at the head of the term, which the environment has. -/
structure WeakHeadNormal (env : Environment) (t : Term) : Prop where
  contracted : ∀ s, ¬ HeadContracts env t s
  known : ∀ name, ¬ HeadUnknown env name t

/-- So many contractions at the head lead from the first term to the second one. -/
inductive HeadChain (env : Environment) (t : Term) : Nat → Term → Prop
  | refl : HeadChain env t 0 t
  | tail {n : Nat} {s u : Term} (chain : HeadChain env t n s) (contracts : HeadContracts env s u) :
      HeadChain env t (n + 1) u

/-- What contractions at the head of a term lead to, if there is a budget of them. -/
inductive HeadOutcome (env : Environment) (n : Nat) (t : Term) : Except ReductionError Term → Prop
  | normal {m : Nat} {r : Term} (within : m ≤ n) (chain : HeadChain env t m r)
      (normal : WeakHeadNormal env r) : HeadOutcome env n t (.ok r)
  | unknown {m : Nat} {s : Term} {name : Name} (within : m ≤ n) (chain : HeadChain env t m s)
      (unknown : HeadUnknown env name s) : HeadOutcome env n t (.error (.unknownConstant name))
  | exhausted {s : Term} (chain : HeadChain env t (n + 1) s) :
      HeadOutcome env n t (.error (.outOfFuel n))

/-- A contraction at the head is a step of reduction. -/
theorem HeadContracts.step (contracts : HeadContracts env t s) : Step env t s := by
  induction contracts with
  | beta x domain body arg args => exact .beta x domain body arg args
  | zeta x value type body => exact .zeta x value type body
  | delta levels unfolds => exact .delta levels unfolds
  | applied args _ step => exact .appHead args step

theorem HeadContracts.mkApp (contracts : HeadContracts env t s) (noApp : t.isApp = false)
    (args : List Term) : HeadContracts env (t.mkApp args) (s.mkApp args) := by
  by_cases none : args = []
  · simpa [none] using contracts
  · rw [mkApp_of_not_isApp noApp none]
    exact .applied args contracts

/-- In spine form the head is seen without looking into the head of an application. -/
theorem headStep_iff_headContracts (spine : t.inSpineForm) :
    HeadStep env t s ↔ HeadContracts env t s := by
  constructor
  · rintro (split | split | ⟨split, unfolds⟩)
    · rw [(eq_mkApp_of_spine spine split).1]
      exact .beta _ _ _ _ _
    · rw [(eq_mkApp_of_spine spine split).1]
      exact (HeadContracts.zeta _ _ _ _).mkApp rfl _
    · rw [(eq_mkApp_of_spine spine split).1]
      exact (HeadContracts.delta _ unfolds).mkApp rfl _
  · intro contracts
    cases contracts with
    | beta x domain body arg args => exact .beta rfl
    | zeta x value type body => simpa using HeadStep.of_zeta x value type body []
    | delta levels unfolds => simpa using HeadStep.of_delta levels [] unfolds
    | applied args contracts =>
      obtain ⟨noApp, -, -, -⟩ := inSpineForm_app.1 spine
      cases contracts with
      | zeta x value type body => exact .zeta rfl
      | delta levels unfolds => exact .delta rfl unfolds
      | _ => cases noApp

theorem innermostHead_of_not_isApp (noApp : t.isApp = false) : t.innermostHead = t := by
  cases t with
  | app head args => cases noApp
  | _ => rfl

theorem spine_fst_of_inSpineForm (spine : t.inSpineForm) : t.spine.1 = t.innermostHead := by
  cases t with
  | app head args =>
    obtain ⟨noApp, -, -, -⟩ := inSpineForm_app.1 spine
    exact (innermostHead_of_not_isApp noApp).symm
  | _ => rfl

theorem headStep_eq_error_iff {e : ReductionError} (spine : t.inSpineForm) :
    t.headStep env = .error e ↔ ∃ name, HeadUnknown env name t ∧ e = .unknownConstant name := by
  rw [headStep_eq_error_iff_exists]
  have head := spine_fst_of_inSpineForm spine
  constructor
  · rintro ⟨name, levels, args, split, noPrimitive, undefined, rfl⟩
    rw [split] at head
    exact ⟨name, ⟨⟨levels, head.symm⟩, noPrimitive, undefined⟩, rfl⟩
  · rintro ⟨name, ⟨⟨levels, unknown⟩, noPrimitive, undefined⟩, rfl⟩
    exact ⟨name, levels, t.spine.2, by rw [← unknown, ← head], noPrimitive, undefined, rfl⟩

theorem headStep_eq_some_iff (spine : t.inSpineForm) :
    t.headStep env = .ok (some s) ↔ HeadContracts env t s :=
  headStep_iff.trans (headStep_iff_headContracts spine)

theorem headNormal_iff (spine : t.inSpineForm) : HeadNormal env t ↔ WeakHeadNormal env t := by
  constructor
  · intro normal
    refine ⟨fun s contracts => ?_, fun name unknown => ?_⟩
    · cases normal.symm.trans ((headStep_eq_some_iff spine).mpr contracts)
    · cases normal.symm.trans ((headStep_eq_error_iff spine).mpr ⟨name, unknown, rfl⟩)
  · rintro ⟨noContraction, known⟩
    rcases stepped : t.headStep env with e | _ | s
    · obtain ⟨name, unknown, -⟩ := (headStep_eq_error_iff spine).mp stepped
      exact absurd unknown (known name)
    · exact stepped
    · exact absurd ((headStep_eq_some_iff spine).mp stepped) (noContraction s)

/-- A contraction at the head keeps spine form, so that it hides no redex from the next one. -/
theorem HeadContracts.inSpineForm (bodies : env.SpineBodies) (contracts : HeadContracts env t s)
    (spine : t.inSpineForm) : s.inSpineForm :=
  contracts.step.inSpineForm bodies spine

theorem HeadChain.inSpineForm (bodies : env.SpineBodies) (chain : HeadChain env t n s)
    (spine : t.inSpineForm) : s.inSpineForm := by
  induction chain with
  | refl => exact spine
  | tail _ contracts ih => exact contracts.inSpineForm bodies ih

/-- A chain of contractions at the head is paid from the budget, one unit for each, also in a
context that keeps steps at the head. -/
theorem HeadChain.whnfWithin_context {context : Term → Term} (bodies : env.SpineBodies)
    (chain : HeadChain env t n s) (spine : t.inSpineForm)
    (single : ∀ {a b : Term}, HeadStep env a b → HeadStep env (context a) (context b))
    (budget remaining : Nat) :
    (context t).whnfWithin env budget (n + remaining) =
      (context s).whnfWithin env budget remaining := by
  induction chain generalizing remaining with
  | refl => rw [Nat.zero_add]
  | @tail n s u chain contracts ih =>
    have step := (headStep_iff_headContracts (chain.inSpineForm bodies spine)).mpr contracts
    calc
      (context t).whnfWithin env budget (n + 1 + remaining) =
          (context t).whnfWithin env budget (n + (remaining + 1)) := by
        rw [Nat.add_assoc, Nat.add_comm 1]
      _ = (context s).whnfWithin env budget (remaining + 1) := ih (remaining + 1)
      _ = (context u).whnfWithin env budget remaining := (single step).whnfWithin budget remaining

/-- A chain of contractions at the head is paid from the budget. -/
theorem HeadChain.whnfWithin (bodies : env.SpineBodies) (chain : HeadChain env t n s)
    (spine : t.inSpineForm) (budget remaining : Nat) :
    t.whnfWithin env budget (n + remaining) = s.whnfWithin env budget remaining :=
  chain.whnfWithin_context bodies spine id budget remaining

/-- The function answers with the outcome. -/
theorem HeadOutcome.whnf_eq {o : Except ReductionError Term} (bodies : env.SpineBodies)
    (outcome : HeadOutcome env n t o) (spine : t.inSpineForm) : t.whnf env n = o := by
  unfold whnf
  cases outcome with
  | normal within chain normal =>
    obtain ⟨rest, rfl⟩ := Nat.exists_eq_add_of_le within
    have stopped := (headNormal_iff (chain.inSpineForm bodies spine)).mpr normal
    rw [chain.whnfWithin bodies spine, whnfWithin, stopped]
  | unknown within chain unknown =>
    obtain ⟨rest, rfl⟩ := Nat.exists_eq_add_of_le within
    have failed := (headStep_eq_error_iff (chain.inSpineForm bodies spine)).mpr ⟨_, unknown, rfl⟩
    rw [chain.whnfWithin bodies spine, whnfWithin, failed]
  | exhausted chain =>
    cases chain with
    | tail chain contracts =>
      have stepped := (headStep_eq_some_iff (chain.inSpineForm bodies spine)).mpr contracts
      rw [← Nat.add_zero n, chain.whnfWithin bodies spine, whnfWithin, stepped]

/-- A chain that takes the whole budget goes on, or what it has led to is the outcome. -/
theorem HeadChain.exists_outcome (chain : HeadChain env t n s) : ∃ o, HeadOutcome env n t o := by
  by_cases goesOn : ∃ u, HeadContracts env s u
  · obtain ⟨u, contracts⟩ := goesOn
    exact ⟨_, .exhausted (chain.tail contracts)⟩
  by_cases unknown : ∃ name, HeadUnknown env name s
  · obtain ⟨name, unknown⟩ := unknown
    exact ⟨_, .unknown (Nat.le_refl n) chain unknown⟩
  · push Not at goesOn unknown
    exact ⟨_, .normal (Nat.le_refl n) chain ⟨goesOn, unknown⟩⟩

/-- There is an outcome for every budget. -/
theorem exists_headOutcome (env : Environment) (n : Nat) (t : Term) :
    ∃ o, HeadOutcome env n t o := by
  induction n with
  | zero => exact HeadChain.refl.exists_outcome
  | succ n ih =>
    obtain ⟨o, outcome⟩ := ih
    cases outcome with
    | normal within chain normal => exact ⟨_, .normal (Nat.le_succ_of_le within) chain normal⟩
    | unknown within chain unknown => exact ⟨_, .unknown (Nat.le_succ_of_le within) chain unknown⟩
    | exhausted chain => exact chain.exists_outcome

/-- The function answers with the only outcome that there is. -/
theorem whnf_eq_iff {o : Except ReductionError Term} (bodies : env.SpineBodies)
    (spine : t.inSpineForm) : t.whnf env n = o ↔ HeadOutcome env n t o := by
  constructor
  · rintro rfl
    obtain ⟨o, outcome⟩ := exists_headOutcome env n t
    rwa [outcome.whnf_eq bodies spine]
  · intro outcome
    exact outcome.whnf_eq bodies spine

/-- A chain has a first part of every smaller length. -/
theorem HeadChain.exists_of_le (chain : HeadChain env t n s) (within : m ≤ n) :
    ∃ u, HeadChain env t m u := by
  induction chain with
  | refl =>
    obtain rfl := Nat.le_zero.mp within
    exact ⟨t, .refl⟩
  | @tail n s u chain contracts ih =>
    by_cases all : m = n + 1
    · subst all
      exact ⟨u, chain.tail contracts⟩
    · exact ih (by omega)

/-- A budget is enough exactly if it allows all the steps that lead to the normal form. -/
theorem HeadChain.whnf_eq (bodies : env.SpineBodies) (spine : t.inSpineForm)
    (chain : HeadChain env t n r) (normal : WeakHeadNormal env r) (fuel : Nat) :
    t.whnf env fuel = if n ≤ fuel then .ok r else .error (.outOfFuel fuel) := by
  split
  next enough => exact (HeadOutcome.normal enough chain normal).whnf_eq bodies spine
  next short =>
    obtain ⟨u, longer⟩ := chain.exists_of_le (Nat.lt_of_not_le short)
    exact (HeadOutcome.exhausted longer).whnf_eq bodies spine

/-- Within a larger budget the outcome is the same, unless the budget is exhausted. -/
theorem HeadOutcome.of_le {o : Except ReductionError Term} {more : Nat}
    (outcome : HeadOutcome env n t o) (finished : o ≠ .error (.outOfFuel n)) (enough : n ≤ more) :
    HeadOutcome env more t o := by
  cases outcome with
  | normal within chain normal => exact .normal (Nat.le_trans within enough) chain normal
  | unknown within chain unknown => exact .unknown (Nat.le_trans within enough) chain unknown
  | exhausted chain => exact absurd rfl finished

theorem headOutcome_ok_iff :
    HeadOutcome env n t (.ok r) ↔ (∃ m ≤ n, HeadChain env t m r) ∧ WeakHeadNormal env r := by
  constructor
  · rintro ⟨within, chain, normal⟩
    exact ⟨⟨_, within, chain⟩, normal⟩
  · rintro ⟨⟨m, within, chain⟩, normal⟩
    exact .normal within chain normal

theorem headOutcome_unknownConstant_iff {name : Name} :
    HeadOutcome env n t (.error (.unknownConstant name)) ↔
      ∃ m ≤ n, ∃ s, HeadChain env t m s ∧ HeadUnknown env name s := by
  constructor
  · rintro (_ | ⟨within, chain, unknown⟩ | _)
    exact ⟨_, within, _, chain, unknown⟩
  · rintro ⟨m, within, s, chain, unknown⟩
    exact .unknown within chain unknown

theorem headOutcome_outOfFuel_iff {budget : Nat} :
    HeadOutcome env n t (.error (.outOfFuel budget)) ↔
      budget = n ∧ ∃ s, HeadChain env t (n + 1) s := by
  constructor
  · rintro (_ | _ | chain)
    exact ⟨rfl, _, chain⟩
  · rintro ⟨rfl, s, chain⟩
    exact .exhausted chain

/-- Reduction keeps spine form. -/
theorem inSpineForm_of_whnf (bodies : env.SpineBodies) (spine : t.inSpineForm)
    (found : t.whnf env n = .ok r) : r.inSpineForm := by
  obtain ⟨⟨m, -, chain⟩, -⟩ := headOutcome_ok_iff.mp ((whnf_eq_iff bodies spine).mp found)
  exact chain.inSpineForm bodies spine

/-- The weak head normal form is what at most as many contractions at the head lead to as the budget
allows, if the environment has the constant that may stand at its head. The constant that is not
found stands at the head after at most as many contractions. The budget is exhausted exactly if one
contraction more than it allows is possible. There is always one of these outcomes and no other, the
budget matters only where it is exhausted, and a weak head normal form takes nothing from it. -/
theorem whnf_spends_budget (bodies : env.SpineBodies) (spine : t.inSpineForm) (n : Nat) :
    (∀ r, t.whnf env n = .ok r ↔ (∃ m ≤ n, HeadChain env t m r) ∧ WeakHeadNormal env r) ∧
    (∀ name, t.whnf env n = .error (.unknownConstant name) ↔
      ∃ m ≤ n, ∃ s, HeadChain env t m s ∧ HeadUnknown env name s) ∧
    (∀ budget, t.whnf env n = .error (.outOfFuel budget) ↔
      budget = n ∧ ∃ s, HeadChain env t (n + 1) s) ∧
    (∃! o, HeadOutcome env n t o) ∧
    (t.whnf env n ≠ .error (.outOfFuel n) → ∀ more ≥ n, t.whnf env more = t.whnf env n) ∧
    ∀ r, t.whnf env n = .ok r → r.whnf env 0 = .ok r := by
  have outcome : HeadOutcome env n t (t.whnf env n) := (whnf_eq_iff bodies spine).mp rfl
  refine ⟨fun r => ?_, fun name => ?_, fun budget => ?_, ?_, ?_, ?_⟩
  · rw [whnf_eq_iff bodies spine, headOutcome_ok_iff]
  · rw [whnf_eq_iff bodies spine, headOutcome_unknownConstant_iff]
  · rw [whnf_eq_iff bodies spine, headOutcome_outOfFuel_iff]
  · exact ⟨_, outcome, fun o outcome' => (outcome'.whnf_eq bodies spine).symm⟩
  · intro finished more enough
    exact (outcome.of_le finished enough).whnf_eq bodies spine
  · intro r found
    obtain ⟨-, normal⟩ := headSteps_of_whnf found
    exact normal.whnfWithin 0 0

end Term

namespace Prelude

open Term (HeadChain HeadContracts)

/-- What a name stands for is unfolded by one contraction and the function applied by another. The
name in the argument is left. -/
theorem headChain_aliasedList :
    HeadChain aliases aliasedList 2 (applied listName [.const aliasName .empty]) := by
  have function : HeadContracts aliases aliasedList
      (listFunction.mkApp [.const aliasName .empty]) :=
    .applied _ (.delta .empty ⟨rfl, _, rfl, rfl⟩)
  have applied : HeadContracts aliases (listFunction.mkApp [.const aliasName .empty])
      (Prelude.applied listName [.const aliasName .empty]) :=
    .beta ⟨"A"⟩ smallTypes (Prelude.applied listName [.var 0]) (.const aliasName .empty) []
  exact (HeadChain.refl.tail function).tail applied

/-- For a list under another name the budget has to be two, and need not be more. -/
theorem whnf_spends_budget_aliasedList :
    aliases.SpineBodies ∧ aliasedList.inSpineForm ∧
      aliasedList.whnf aliases 1 = .error (.outOfFuel 1) ∧
      ∀ more ≥ 2, aliasedList.whnf aliases more =
        .ok (applied listName [.const aliasName .empty]) := by
  have bodies := aliases_closedBodies.spineBodies
  have spine : aliasedList.inSpineForm := rfl
  have found : aliasedList.whnf aliases 2 = .ok (applied listName [.const aliasName .empty]) := rfl
  obtain ⟨-, -, exhausted, -, -, -⟩ := Term.whnf_spends_budget bodies spine 1
  obtain ⟨-, -, -, -, unchanged, -⟩ := Term.whnf_spends_budget bodies spine 2
  refine ⟨bodies, spine, (exhausted 1).mpr ⟨rfl, _, headChain_aliasedList⟩, fun more enough => ?_⟩
  have finished : aliasedList.whnf aliases 2 ≠ .error (.outOfFuel 2) := by
    rw [found]
    exact nofun
  exact (unchanged finished more enough).trans found

end Prelude

end Readback
