import Readback.Proofs.HeadStability
import Mathlib.Tactic.Ring

/-!
# Classification of types that reduce to each other

The readable type that a term stands for does not depend on how the term is written, as far as the
budget goes. A reduct takes at most as many steps at its head as the term itself, so that it is
classified within the same budget. The other way round, the number of steps at the head is all that
can keep a term from being classified as its reduct is. It can be too large for any budget: with
each further definition that applies the previous one twice, the number doubles.

## Main definitions

* `Prelude.doubling`, `Prelude.doublings` — functions that take very many steps, and where they are
  defined

## Main statements

* `Term.HeadChain.exists_of_steps` — a reduct takes at most as many steps at its head
* `Readable.ofType_of_steps` — classification before and after reduction
* `Prelude.headChain_doubled` — the number of steps doubles with each definition
-/

namespace Readback

variable {env : Environment}

namespace Term

variable {t s u r head : Term} {args : List Term} {n m : Nat}

/-- Whatever a term reduces to takes at most as many steps at its head to a reduct of what the term
leads to. -/
theorem HeadChain.exists_of_steps (bodies : env.ClosedBodies) (spine : t.inSpineForm)
    (chain : HeadChain env t n s) (steps : Steps env t u) :
    ∃ m ≤ n, ∃ u', HeadChain env u m u' ∧ Steps env s u' := by
  induction chain with
  | refl => exact ⟨0, Nat.le_refl 0, u, .refl, steps⟩
  | @tail n v w chain contracts ih =>
    obtain ⟨m, fewer, v', late, reduced⟩ := ih
    have spineV := chain.inSpineForm bodies.spineBodies spine
    have headStep := (headStep_iff_headContracts spineV).mpr contracts
    obtain ⟨w', reduced', rfl | later⟩ := headStep.commutes_steps bodies spineV reduced
    · exact ⟨m, Nat.le_succ_of_le fewer, v', late, reduced'⟩
    · have spineV' := Steps.inSpineForm bodies reduced spineV
      have contracts' := (headStep_iff_headContracts spineV').mp later
      exact ⟨m + 1, Nat.succ_le_succ fewer, w', late.tail contracts', reduced'⟩

/-- Steps at the head can be counted. -/
theorem HeadSteps.exists_headChain (bodies : env.SpineBodies) (spine : t.inSpineForm)
    (steps : HeadSteps env t s) : ∃ n, HeadChain env t n s := by
  induction steps with
  | refl => exact ⟨0, .refl⟩
  | tail _ step ih =>
    obtain ⟨n, chain⟩ := ih
    have spineV := chain.inSpineForm bodies spine
    exact ⟨n + 1, chain.tail ((headStep_iff_headContracts spineV).mp step)⟩

theorem HeadChain.trans (chain : HeadChain env t n s) (chain' : HeadChain env s m u) :
    HeadChain env t (n + m) u := by
  induction chain' with
  | refl => exact chain
  | tail _ contracts ih => exact ih.tail contracts

theorem HeadChain.steps (chain : HeadChain env t n s) : Steps env t s := by
  induction chain with
  | refl => exact .refl
  | tail _ contracts ih => exact ih.tail contracts.step

/-- A term with a rigid head is in weak head normal form. -/
theorem Rigid.weakHeadNormal (rigid : Rigid env head) (spine : (head.mkApp args).inSpineForm) :
    WeakHeadNormal env (head.mkApp args) :=
  (headNormal_iff spine).mp (rigid.headNormal args)

/-- Steps at the head find a rigid head that any reduction leads to. -/
theorem Rigid.exists_headChain_of_steps (rigid : Rigid env head) (bodies : env.ClosedBodies)
    (spine : t.inSpineForm) (steps : Steps env t (head.mkApp args)) :
    ∃ n args', HeadChain env t n (head.mkApp args') ∧ List.Forall₂ (Steps env) args' args := by
  obtain ⟨args', headSteps, each⟩ := exists_headSteps_of_steps bodies spine rigid steps .refl
  obtain ⟨n, chain⟩ := headSteps.exists_headChain bodies.spineBodies spine
  exact ⟨n, args', chain, each⟩

end Term

namespace Readable

open Term (Steps HeadChain HeadOutcome Rigid WeakHeadNormal)

variable {type type' head : Term} {args : List Term} {r : Readable} {fuel n : Nat}

/-- A type that is classified takes steps at its head to a rigid head, within the budget. -/
theorem exists_headChain_of_ofType (bodies : env.ClosedBodies) (spine : type.inSpineForm)
    (classified : ofType env fuel type = .ok r) :
    ∃ n ≤ fuel, ∃ head args, Rigid env head ∧ HeadChain env type n (head.mkApp args) ∧
      ReadOff env (head.mkApp args) r := by
  obtain ⟨t, whnf, readOff⟩ := ofType_eq_ok_iff.mp classified
  rw [Term.whnf_eq_iff bodies.spineBodies spine, Term.headOutcome_ok_iff] at whnf
  obtain ⟨⟨n, within, chain⟩, -⟩ := whnf
  obtain ⟨head, args, rigid, rfl⟩ :=
    readOff.exists_rigid (chain.inSpineForm bodies.spineBodies spine)
  exact ⟨n, within, head, args, rigid, chain, readOff⟩

/-- A type that takes so many steps to a rigid head is classified with the budgets that allow them,
and with no other. -/
theorem ofType_eq_of_headChain (bodies : env.ClosedBodies) (spine : type.inSpineForm)
    (rigid : Rigid env head) (chain : HeadChain env type n (head.mkApp args))
    (readOff : ReadOff env (head.mkApp args) r) (fuel : Nat) :
    ofType env fuel type =
      if n ≤ fuel then .ok r else .error (.reduction (env.pretty type) (.outOfFuel fuel)) := by
  have normal := rigid.weakHeadNormal (chain.inSpineForm bodies.spineBodies spine)
  have reduced := chain.whnf_eq bodies.spineBodies spine normal fuel
  split
  next enough =>
    rw [if_pos enough] at reduced
    exact ofType_eq_ok_iff.mpr ⟨_, reduced, readOff⟩
  next short =>
    rw [if_neg short] at reduced
    rw [ofType, TypeHead.ofType_eq_bind, reduced]
    rfl

/-- A type that is classified reduces to types that are classified alike, within the same budget. -/
theorem exists_alike_of_steps (bodies : env.ClosedBodies) (spine : type.inSpineForm)
    (steps : Steps env type type') (classified : ofType env fuel type = .ok r) :
    ∃ r', Alike env r r' ∧
      ∀ more ≥ fuel, ofType env more type = .ok r ∧ ofType env more type' = .ok r' := by
  obtain ⟨n, within, head, args, rigid, chain, readOff⟩ :=
    exists_headChain_of_ofType bodies spine classified
  obtain ⟨m, fewer, u, chain', reduced⟩ := chain.exists_of_steps bodies spine steps
  obtain ⟨args', rfl, each⟩ := rigid.exists_of_steps reduced
  obtain ⟨r', readOff', alike⟩ :=
    readOff.exists_alike rigid (each.imp fun _ b steps => ⟨b, steps, .refl⟩)
  have spine' := Term.Steps.inSpineForm bodies steps spine
  refine ⟨r', alike, fun more enough => ?_⟩
  have allowed : n ≤ more := Nat.le_trans within enough
  have allowed' : m ≤ more := Nat.le_trans fewer allowed
  rw [ofType_eq_of_headChain bodies spine rigid chain readOff, if_pos allowed,
    ofType_eq_of_headChain bodies spine' rigid chain' readOff', if_pos allowed']
  exact ⟨rfl, rfl⟩

/-- A type that reduces to one that is classified takes steps at its head to a rigid head. With the
budgets that allow them, and with no other, it is classified alike. -/
theorem exists_headChain_of_steps (bodies : env.ClosedBodies) (spine : type.inSpineForm)
    (steps : Steps env type type') {r' : Readable} (classified : ofType env fuel type' = .ok r') :
    ∃ n t r, HeadChain env type n t ∧ WeakHeadNormal env t ∧ Alike env r r' ∧
      ∀ more, ofType env more type =
        if n ≤ more then .ok r else .error (.reduction (env.pretty type) (.outOfFuel more)) := by
  have spine' := Term.Steps.inSpineForm bodies steps spine
  obtain ⟨m, -, head, args', rigid, chain', readOff'⟩ :=
    exists_headChain_of_ofType bodies spine' classified
  obtain ⟨n, args, chain, each⟩ :=
    rigid.exists_headChain_of_steps bodies spine (steps.trans chain'.steps)
  -- what is read off depends on the arguments only up to reduction
  have joined : List.Forall₂ (Relation.Join (Steps env)) args' args :=
    (each.imp fun _ b steps => ⟨b, .refl, steps⟩).flip
  obtain ⟨r, readOff, alike⟩ := readOff'.exists_alike rigid joined
  have normal := rigid.weakHeadNormal (chain.inSpineForm bodies.spineBodies spine)
  exact ⟨n, _, r, chain, normal, alike.symm,
    ofType_eq_of_headChain bodies spine rigid chain readOff⟩

/-- Classification does not depend on how a type is written, but for the budget. What a type reduces
to is classified with every budget that the type is classified with, and alike. If what it reduces
to is classified, then so is the type, alike and with exactly the budgets that allow its steps at
the head; with any other it fails for lack of budget. So both are classified with some budget or
neither is, unless the steps at the head of the type are more than the largest budget allows. If any
reduction leads to an inductive or to a primitive type, then so does the normal form, with exactly
the budgets that allow the steps at the head. -/
theorem ofType_of_steps (bodies : env.ClosedBodies) (spine : type.inSpineForm)
    (steps : Steps env type type') :
    (∀ fuel r, ofType env fuel type = .ok r → ∃ r', Alike env r r' ∧
      ∀ more ≥ fuel, ofType env more type = .ok r ∧ ofType env more type' = .ok r') ∧
    (∀ fuel r', ofType env fuel type' = .ok r' → ∃ n t r, HeadChain env type n t ∧
      WeakHeadNormal env t ∧ Alike env r r' ∧ ∀ more, ofType env more type =
        if n ≤ more then .ok r else .error (.reduction (env.pretty type) (.outOfFuel more))) ∧
    ((∃ fuel ≤ maxFuel, ∃ r, ofType env fuel type = .ok r) ↔
      (∃ fuel ≤ maxFuel, ∃ r', ofType env fuel type' = .ok r') ∧
        ¬ ∃ t, HeadChain env type (maxFuel + 1) t) ∧
    ∀ head args, Rigid env head → Steps env type (head.mkApp args) →
      ∃ n args', HeadChain env type n (head.mkApp args') ∧ List.Forall₂ (Steps env) args' args ∧
        ∀ fuel, type.whnf env fuel =
          if n ≤ fuel then .ok (head.mkApp args') else .error (.outOfFuel fuel) := by
  refine ⟨fun fuel r => exists_alike_of_steps bodies spine steps,
    fun fuel r' => exists_headChain_of_steps bodies spine steps, ⟨?_, ?_⟩, ?_⟩
  · rintro ⟨fuel, within, r, classified⟩
    obtain ⟨r', -, both⟩ := exists_alike_of_steps bodies spine steps classified
    refine ⟨⟨fuel, within, r', (both fuel (Nat.le_refl _)).2⟩, ?_⟩
    rintro ⟨t, longer⟩
    obtain ⟨t', whnf, -⟩ := ofType_eq_ok_iff.mp (both maxFuel within).1
    rw [(HeadOutcome.exhausted longer).whnf_eq bodies.spineBodies spine] at whnf
    cases whnf
  · rintro ⟨⟨fuel, -, r', classified⟩, short⟩
    obtain ⟨n, t, r, chain, -, -, answers⟩ :=
      exists_headChain_of_steps bodies spine steps classified
    have within : n ≤ maxFuel := by
      by_contra longer
      exact short (chain.exists_of_le (Nat.lt_of_not_le longer))
    exact ⟨maxFuel, Nat.le_refl _, r, by rw [answers, if_pos within]⟩
  · intro head args rigid steps
    obtain ⟨n, args', chain, each⟩ := rigid.exists_headChain_of_steps bodies spine steps
    have normal := rigid.weakHeadNormal (chain.inSpineForm bodies.spineBodies spine)
    exact ⟨n, args', chain, each, chain.whnf_eq bodies.spineBodies spine normal⟩

end Readable

namespace Prelude

open Term (HeadChain HeadContracts HeadOutcome Steps)

/-- The lists of numbers under other names are classified with two steps, and then as they are. -/
theorem ofType_of_steps_aliasedList :
    aliases.ClosedBodies ∧ aliasedList.inSpineForm ∧
      Steps aliases aliasedList (applied listName [indTerm natName]) ∧
      (∃ r r', Readable.Alike aliases r r' ∧ ∀ more ≥ 2,
        Readable.ofType aliases more aliasedList = .ok r ∧
          Readable.ofType aliases more (applied listName [indTerm natName]) = .ok r') ∧
      ∃ fuel ≤ maxFuel, ∃ r,
        Readable.ofType aliases fuel (applied listName [indTerm natName]) = .ok r := by
  have spine : aliasedList.inSpineForm := rfl
  have classified : Readable.ofType aliases 2 aliasedList = .ok _ := rfl
  obtain ⟨alike, -, budgets, -⟩ :=
    Readable.ofType_of_steps aliases_closedBodies spine steps_aliasedList
  obtain ⟨found, -⟩ := budgets.mp ⟨2, by decide, _, classified⟩
  exact ⟨aliases_closedBodies, spine, steps_aliasedList, ⟨_, alike 2 _ classified⟩, found⟩

/-! ## Steps that no budget allows -/

/-- The name of a function on types. -/
def doublingName (k : Nat) : Name := ⟨"D" ++ toString k⟩

/-- The function applied to a type. -/
def doubled (k : Nat) (type : Term) : Term := (Term.const (doublingName k) .empty).mkApp [type]

/-- What the names stand for. The first function answers the type that it is given, and each of the
others applies the one before it twice. -/
def doubling : Nat → Term
  | 0 => .lam ⟨"A"⟩ smallTypes (.var 0)
  | k + 1 => .lam ⟨"A"⟩ smallTypes (doubled k (doubled k (.var 0)))

/-- The prelude with the first `n` of the functions. -/
def doublings : Nat → Environment
  | 0 => environment
  | n + 1 => (doublings n).declare (.constant
      ⟨doublingName n, Term.arrow smallTypes smallTypes, some (doubling n)⟩)

/-- Each function answers the type that it is given. It takes twice as many steps as the one before
it, and two more. -/
theorem headChain_doubled {k : Nat} (unfolds : ∀ j ≤ k, env.Unfolds (doublingName j) (doubling j))
    (type : Term) : HeadChain env (doubled k type) (2 ^ (k + 2) - 2) type := by
  induction k generalizing type with
  | zero =>
    have function : HeadContracts env (doubled 0 type) ((doubling 0).mkApp [type]) :=
      .applied _ (.delta .empty (unfolds 0 (Nat.le_refl 0)))
    have applied : HeadContracts env ((doubling 0).mkApp [type])
        (((Term.var 0).instantiate [type]).mkApp []) :=
      .beta ⟨"A"⟩ smallTypes (.var 0) type []
    rw [Term.mkApp_nil] at applied
    exact (HeadChain.refl.tail function).tail applied
  | succ k ih =>
    have before := ih fun j within => unfolds j (Nat.le_succ_of_le within)
    have function : HeadContracts env (doubled (k + 1) type) ((doubling (k + 1)).mkApp [type]) :=
      .applied _ (.delta .empty (unfolds (k + 1) (Nat.le_refl _)))
    have applied : HeadContracts env ((doubling (k + 1)).mkApp [type])
        (doubled k (doubled k type)) :=
      .beta ⟨"A"⟩ smallTypes (doubled k (doubled k (.var 0))) type []
    have start := (HeadChain.refl.tail function).tail applied
    have both := (start.trans (before (doubled k type))).trans (before type)
    have count : 0 + 1 + 1 + (2 ^ (k + 2) - 2) + (2 ^ (k + 2) - 2) = 2 ^ (k + 1 + 2) - 2 := by
      have twice : 2 ^ (k + 1 + 2) = 2 * 2 ^ (k + 2) := by ring
      have positive : 2 ≤ 2 ^ (k + 2) := Nat.le_self_pow (by omega) 2
      omega
    rwa [count] at both

theorem doublings_closedBodies : (doublings 32).ClosedBodies :=
  Environment.closedBodies_of_definitions (by decide +kernel)

theorem doublings_unfolds : ∀ j ≤ 31, (doublings 32).Unfolds (doublingName j) (doubling j) := by
  have noPrimitive : ∀ j < 32, (doublings 32).primitive? (doublingName j) = none := by
    decide +kernel
  have defined : ∀ j < 32, (doublings 32).definition? (doublingName j) =
      some ⟨doublingName j, Term.arrow smallTypes smallTypes, some (doubling j)⟩ := by
    decide +kernel
  intro j within
  exact ⟨noPrimitive j (by omega), _, defined j (by omega), rfl⟩

/-- Given the type of numbers, which is classified without a step, the last of 32 functions takes
`2 ^ 33 - 2` steps to answer it. No budget allows as many. -/
theorem doubled_outOfFuel :
    (doublings 32).ClosedBodies ∧ (doubled 31 (indTerm natName)).inSpineForm ∧
      (indTerm natName).inSpineForm ∧
      Steps (doublings 32) (doubled 31 (indTerm natName)) (indTerm natName) ∧
      (∃ r, Readable.ofType (doublings 32) 0 (indTerm natName) = .ok r) ∧
      ∀ fuel ≤ maxFuel,
        (doubled 31 (indTerm natName)).whnf (doublings 32) fuel = .error (.outOfFuel fuel) ∧
        ∀ r, Readable.ofType (doublings 32) fuel (doubled 31 (indTerm natName)) ≠ .ok r := by
  have bodies := doublings_closedBodies
  have spine : (doubled 31 (indTerm natName)).inSpineForm := rfl
  have chain := headChain_doubled doublings_unfolds (indTerm natName)
  have exhausted : ∀ fuel ≤ maxFuel,
      (doubled 31 (indTerm natName)).whnf (doublings 32) fuel = .error (.outOfFuel fuel) := by
    intro fuel within
    have short : fuel + 1 ≤ 2 ^ (31 + 2) - 2 := by
      have : maxFuel = 4294967295 := rfl
      omega
    obtain ⟨t, longer⟩ := chain.exists_of_le short
    exact (HeadOutcome.exhausted longer).whnf_eq bodies.spineBodies spine
  refine ⟨bodies, spine, rfl, chain.steps, ⟨_, rfl⟩, fun fuel within => ⟨exhausted fuel within, ?_⟩⟩
  intro r classified
  obtain ⟨t, whnf, -⟩ := Readable.ofType_eq_ok_iff.mp classified
  cases whnf.symm.trans (exhausted fuel within)

end Prelude

end Readback
