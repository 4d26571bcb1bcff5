import Readback.Proofs.Conversion
import Readback.Proofs.Extension

/-!
# More fuel

The budget bounds the head reduction of each type that decoding comes to, of the type of every field
anew. An answer that was found within a budget is found within every larger one, be it a term, a
complaint about a value or about a type: the budget only decides whether there is an answer. So
decoding can be tried with a small budget first, and two budgets never answer differently.

## Main definitions

* `DecodeError.IsOutOfFuel` — the failures of a budget that is too small
* `RunsOut` — the answer is such a failure

## Main statements

* `Term.whnf_persists` — normal forms persist when the budget grows
* `Readable.ofType_persists`, `Readable.decode_persists` — and so do readable types and terms
* `decodeAt_with_more_fuel` — decoding with two budgets
-/

namespace Readback

variable {env : Environment} {fuel more : Nat}

/-! ## Failures of the budget -/

/-- The budget was too small. -/
def ReductionError.IsOutOfFuel : ReductionError → Prop
  | outOfFuel _ => True
  | unknownConstant _ => False

/-- The budget was too small to reduce the type. -/
def TypeError.IsOutOfFuel : TypeError → Prop
  | reduction _ cause => cause.IsOutOfFuel
  | _ => False

/-- The budget was too small to reduce a type that decoding came to. -/
def DecodeError.IsOutOfFuel : DecodeError → Prop
  | type cause => cause.IsOutOfFuel
  | value _ => False

/-- The answer is that the budget was too small. -/
def RunsOut {α : Type} (answer : Except DecodeError α) : Prop :=
  ∃ e, answer = .error e ∧ e.IsOutOfFuel

/-- Where all other failures stay as they are, the answer stays as it is. -/
theorem Persists.eq_of_not {ε α : Type} {lost : ε → Prop} {before after : Except ε α}
    (persists : Persists lost id before after) (kept : ∀ e, before = .error e → ¬ lost e) :
    after = before := by
  cases before with
  | ok a => exact persists.ok a rfl
  | error e =>
    obtain ⟨e', failed, same⟩ := persists.error e rfl (kept e rfl)
    rw [failed]
    exact congrArg Except.error same

/-! ## Reduction -/

namespace Term

/-- Whatever comes of the steps that remain comes of more of them, too. The budget itself is only
named in the failure. -/
theorem whnfWithin_persists (budget budget' : Nat) {remaining remaining' : Nat}
    (le : remaining ≤ remaining') (t : Term) :
    Persists ReductionError.IsOutOfFuel id (t.whnfWithin env budget remaining)
      (t.whnfWithin env budget' remaining') := by
  induction remaining generalizing remaining' t with
  | zero =>
    rw [whnfWithin_eq_bind, whnfWithin_eq_bind]
    refine (Persists.refl (t.headStep env)).bind fun next? _ => ?_
    cases next? with
    | none => exact .refl _
    | some next => exact .of_undeclared trivial
  | succ remaining ih =>
    obtain ⟨remaining', rfl⟩ := Nat.exists_eq_add_of_le' (Nat.one_le_of_lt le)
    rw [whnfWithin_eq_bind, whnfWithin_eq_bind]
    refine (Persists.refl (t.headStep env)).bind fun next? _ => ?_
    cases next? with
    | none => exact .refl _
    | some next => exact ih (Nat.le_of_succ_le_succ le) next

/-- Normal forms persist when the budget grows. -/
theorem whnf_persists (le : fuel ≤ more) (t : Term) :
    Persists ReductionError.IsOutOfFuel id (t.whnf env fuel) (t.whnf env more) :=
  whnfWithin_persists fuel more le t

end Term

/-! ## Classification -/

namespace Readable

/-- Readable types persist when the budget grows. -/
theorem ofType_persists (le : fuel ≤ more) (type : Term) :
    Persists TypeError.IsOutOfFuel id (ofType env fuel type) (ofType env more type) := by
  have reduced : Persists TypeError.IsOutOfFuel id
      ((type.whnf env fuel).mapError (.reduction (env.pretty type)))
      ((type.whnf env more).mapError (.reduction (env.pretty type))) :=
    (Term.whnf_persists le type).mapError (fun _ ranOut => ranOut) fun _ _ same =>
      congrArg (TypeError.reduction (env.pretty type)) same
  unfold ofType
  rw [TypeHead.ofType_eq_bind, TypeHead.ofType_eq_bind]
  refine (reduced.bind fun t _ => ?_).bind fun head _ => .refl _
  exact .refl _

theorem ofResultType_persists (le : fuel ≤ more) (type : Term) :
    Persists TypeError.IsOutOfFuel id (ofResultType env fuel type)
      (ofResultType env more type) := by
  unfold ofResultType
  exact (ofType_persists le type).bind fun r _ => .refl _

end Readable

/-! ## Decoding -/

/-- Of all that decoding asks for only the types of fields depend on the budget. -/
theorem partsPersist_of_le (env : Environment) (le : fuel ≤ more) :
    PartsPersist DecodeError.IsOutOfFuel id env env fuel more where
  primitive _ _ := .refl _
  immediate _ _ := .refl _
  signature _ _ _ := .refl _
  fieldTypes _ _ := .refl _
  fieldType type := (Readable.ofType_persists le type).mapError (fun _ ranOut => ranOut)
    fun _ _ same => congrArg DecodeError.type same

/-- Decoded terms persist when the budget grows. -/
theorem Readable.decode_persists (le : fuel ≤ more) (r : Readable) (v : Value) :
    Persists DecodeError.IsOutOfFuel id (r.decode env fuel v) (r.decode env more v) :=
  (partsPersist_of_le env le).decode r v

theorem decodeAt_persists (le : fuel ≤ more) (type : Term) (v : Value) :
    Persists DecodeError.IsOutOfFuel id (decodeAt env fuel type v) (decodeAt env more type v) := by
  have classified : Persists DecodeError.IsOutOfFuel id
      ((Readable.ofResultType env fuel type).mapError .type)
      ((Readable.ofResultType env more type).mapError .type) :=
    (Readable.ofResultType_persists le type).mapError (fun _ ranOut => ranOut) fun _ _ same =>
      congrArg DecodeError.type same
  exact classified.bind fun r _ => Readable.decode_persists le r v

/-- Whatever is decoded within a budget is decoded within every larger one, with the same term or
the same error, unless the budget was too small. If the larger budget is too small, so is the
smaller one. -/
theorem decodeAt_with_more_fuel (env : Environment) (type : Term) (v : Value) {fuel more : Nat}
    (le : fuel ≤ more) :
    (¬ RunsOut (decodeAt env fuel type v) →
      decodeAt env more type v = decodeAt env fuel type v) ∧
    (RunsOut (decodeAt env more type v) → RunsOut (decodeAt env fuel type v)) := by
  have kept : ¬ RunsOut (decodeAt env fuel type v) →
      decodeAt env more type v = decodeAt env fuel type v := by
    intro finished
    apply (decodeAt_persists le type v).eq_of_not
    intro e failed ranOut
    exact finished ⟨e, failed, ranOut⟩
  refine ⟨kept, fun ranOut => ?_⟩
  by_contra finished
  rw [kept finished] at ranOut
  exact finished ranOut

namespace Prelude

/-- A list of one number, read at a type for which two steps are needed. One step is too few, and so
is none; with the usual budget the list is the same as with two steps. -/
theorem decodeAt_with_more_fuel_aliasedList :
    let read fuel := decodeAt aliases fuel aliasedList (.block 0 [.immediate 0, .immediate 0])
    0 ≤ 1 ∧ RunsOut (read 1) ∧ RunsOut (read 0) ∧
      2 ≤ defaultFuel ∧ read 2 = .ok (list (.const aliasName .empty) [nat 0]) ∧
      read defaultFuel = .ok (list (.const aliasName .empty) [nat 0]) := by
  intro read
  have tooFew : RunsOut (read 1) := ⟨_, rfl, trivial⟩
  have enough : read 2 = .ok (list (.const aliasName .empty) [nat 0]) := rfl
  have finished : ¬ RunsOut (read 2) := by
    rintro ⟨e, failed, -⟩
    cases enough.symm.trans failed
  obtain ⟨-, smaller⟩ := decodeAt_with_more_fuel aliases aliasedList
    (.block 0 [.immediate 0, .immediate 0]) (Nat.zero_le 1)
  obtain ⟨kept, -⟩ := decodeAt_with_more_fuel aliases aliasedList
    (.block 0 [.immediate 0, .immediate 0]) (show 2 ≤ defaultFuel by decide)
  exact ⟨Nat.zero_le 1, tooFew, smaller tooFew, by decide, enough, (kept finished).trans enough⟩

end Prelude

end Readback
