import Readback.Decode
import Readback.Prelude
import Readback.Proofs.Classification
import Readback.Proofs.HeadReduction

/-!
# Extending an environment

A session declares more and more names. It extends its environment as long as it replaces nothing
and makes no primitive type of a constant that it has declared before. What could be reduced,
classified or decoded before an extension is so afterwards, with the same answer. A failure stays as
well, unless its cause was a name that was not declared; only the types in it may be printed in
another way, since printing looks up the names of constructors.

## Main definitions

* `Environment.Extends`, `Declaration.IsNew` — extensions, and the declarations that extend
* `TypeError.blank`, `DecodeError.blank` — errors without the printed types
* `Persists` — an answer in one environment holds on in another one
* `PartsPersist` — so do the answers that decoding is made of

## Main statements

* `PartsPersist.decode` — decoded terms persist if the parts do
* `Environment.extends_declare` — a new declaration extends the environment
* `Environment.Extends.whnf`, `Environment.Extends.ofType`, `Environment.Extends.decode` — normal
  forms, readable types and decoded terms persist
* `answers_persist` — all answers persist
-/

namespace Readback

/-! ## Extensions -/

/-- The second environment keeps the declarations of the first one, and its primitive types are
those of the first one or no constants there. -/
structure Environment.Extends (env env' : Environment) : Prop where
  inductives : ∀ name d, env.inductive? name = some d → env'.inductive? name = some d
  definitions : ∀ name d, env.definition? name = some d → env'.definition? name = some d
  primitives : ∀ name kind, env.primitive? name = some kind → env'.primitive? name = some kind
  unshadowed : ∀ name kind, env'.primitive? name = some kind → env.primitive? name = none →
    env.definition? name = none

/-- The declaration replaces no other one and hides no constant. -/
def Declaration.IsNew (env : Environment) : Declaration → Prop
  | inductiveType d => env.inductive? d.name = none
  | constant d => env.definition? d.name = none
  | primitive p => env.primitive? p.name = none ∧ env.definition? p.name = none

namespace Environment

variable {env env' env'' : Environment}

theorem Extends.trans (first : env.Extends env') (second : env'.Extends env'') :
    env.Extends env'' where
  inductives name d found := second.inductives name d (first.inductives name d found)
  definitions name d found := second.definitions name d (first.definitions name d found)
  primitives name kind found := second.primitives name kind (first.primitives name kind found)
  unshadowed name kind found free := by
    cases known : env'.primitive? name with
    | some kind' => exact first.unshadowed name kind' known free
    | none =>
      -- the name is primitive in the last environment only, where it hides nothing of the second
      have undefined := second.unshadowed name kind found known
      by_contra defined
      obtain ⟨d, found⟩ := Option.ne_none_iff_exists'.mp defined
      cases undefined.symm.trans (first.definitions name d found)

/-- A new declaration extends the environment. -/
theorem extends_declare {d : Declaration} (new : d.IsNew env) : env.Extends (env.declare d) := by
  cases d with
  | inductiveType d =>
    refine ⟨fun name d' found => ?_, fun _ _ found => found, fun _ _ found => found, ?_⟩
    · have other : d.name ≠ name := by
        rintro rfl
        cases found.symm.trans new
      simpa [declare, inductive?, other] using found
    · intro name kind found free
      cases free.symm.trans found
  | constant d =>
    refine ⟨fun _ _ found => found, fun name d' found => ?_, fun _ _ found => found, ?_⟩
    · have other : d.name ≠ name := by
        rintro rfl
        cases found.symm.trans new
      simpa [declare, definition?, other] using found
    · intro name kind found free
      cases free.symm.trans found
  | primitive p =>
    refine ⟨fun _ _ found => found, fun _ _ found => found, fun name kind found => ?_, ?_⟩
    · have other : p.name ≠ name := by
        rintro rfl
        cases found.symm.trans new.1
      simpa [declare, primitive?, other] using found
    · intro name kind found free
      by_cases same : p.name = name
      · rw [← same]
        exact new.2
      · have old : env.primitive? name = some kind := by
          simpa [declare, primitive?, same] using found
        cases free.symm.trans old

end Environment

/-! ## Errors in two environments -/

/-- The cause of the error is a constant that is not declared. -/
def ReductionError.IsUndeclared : ReductionError → Prop
  | outOfFuel _ => False
  | unknownConstant _ => True

namespace TypeError

/-- The cause of the error is a name that is not declared. -/
def IsUndeclared : TypeError → Prop
  | unknownInductive _ => True
  | reduction _ cause => cause.IsUndeclared
  | _ => False

/-- The error without printed types. -/
def blank : TypeError → TypeError
  | notReadable _ => notReadable ""
  | unknownInductive name => unknownInductive name
  | missingParameters _ name expected found => missingParameters "" name expected found
  | unsupportedLayout name count max => unsupportedLayout name count max
  | unsupportedPrimitive _ kind => unsupportedPrimitive "" kind
  | reduction _ cause => reduction "" cause

end TypeError

/-- The complaint without printed types. -/
def IllFormedValue.blank : IllFormedValue → IllFormedValue
  | blockTag _ tag available => blockTag "" tag available
  | immediateOrdinal _ ordinal available => immediateOrdinal "" ordinal available
  | fieldCount _ constructor tag expected found => fieldCount "" constructor tag expected found
  | scalarShape _ shape raw => scalarShape "" shape raw
  | nullBlock => nullBlock

namespace DecodeError

/-- The cause of the error is a name that is not declared. -/
def IsUndeclared : DecodeError → Prop
  | type cause => cause.IsUndeclared
  | value _ => False

/-- The error without printed types. -/
def blank : DecodeError → DecodeError
  | type cause => type cause.blank
  | value cause => value cause.blank

end DecodeError

/-! ## Answers that persist -/

/-- An answer holds on: a result stays as it is, and so does an error, up to what `blank` takes out
of it, unless it is `undeclared`. -/
structure Persists {ε α : Type} (undeclared : ε → Prop) (blank : ε → ε)
    (before after : Except ε α) : Prop where
  ok : ∀ a, before = .ok a → after = .ok a
  error : ∀ e, before = .error e → ¬ undeclared e → ∃ e', after = .error e' ∧ blank e' = blank e

namespace Persists

variable {ε δ α β : Type} {undeclared : ε → Prop} {undeclared' : δ → Prop} {blank : ε → ε}
  {blank' : δ → δ} {before after : Except ε α}

theorem refl (answer : Except ε α) : Persists undeclared blank answer answer :=
  ⟨fun _ same => same, fun e same _ => ⟨e, same, rfl⟩⟩

theorem of_undeclared {e : ε} (unknown : undeclared e) :
    Persists undeclared blank (.error e) after := by
  constructor
  · intro a same
    cases same
  · intro e' same declared
    cases same
    exact absurd unknown declared

theorem of_blank {e e' : ε} (same : blank e' = blank e) :
    Persists undeclared blank (.error e : Except ε α) (.error e') := by
  constructor
  · intro a other
    cases other
  · intro d given _
    cases given
    exact ⟨e', rfl, same⟩

theorem bind {next next' : α → Except ε β} (first : Persists undeclared blank before after)
    (rest : ∀ a, before = .ok a → Persists undeclared blank (next a) (next' a)) :
    Persists undeclared blank (before >>= next) (after >>= next') := by
  cases before with
  | ok a =>
    rw [first.ok a rfl]
    exact rest a rfl
  | error e =>
    by_cases unknown : undeclared e
    · exact of_undeclared unknown
    · obtain ⟨e', failed, same⟩ := first.error e rfl unknown
      rw [failed]
      exact of_blank same

theorem mapError {f g : ε → δ} (persists : Persists undeclared blank before after)
    (unknown : ∀ e, undeclared e → undeclared' (f e))
    (alike : ∀ e e', blank e' = blank e → blank' (g e') = blank' (f e)) :
    Persists undeclared' blank' (before.mapError f) (after.mapError g) := by
  cases before with
  | ok a =>
    rw [persists.ok a rfl]
    exact refl _
  | error e =>
    by_cases missing : undeclared e
    · exact of_undeclared (unknown e missing)
    · obtain ⟨e', failed, same⟩ := persists.error e rfl missing
      rw [failed]
      exact of_blank (alike e e' same)

/-! Where the environment only serves to print types, any two agree. -/

theorem asResult (env env' : Environment) (r : Readable) :
    Persists TypeError.IsUndeclared TypeError.blank (r.asResult env) (r.asResult env') := by
  unfold Readable.asResult
  split
  · exact .of_blank rfl
  · exact .refl _

theorem decodePrimitive (env env' : Environment) (t : PrimitiveUse) (v : Value) :
    Persists DecodeError.IsUndeclared DecodeError.blank (t.decode env v) (t.decode env' v) := by
  unfold PrimitiveUse.decode
  cases t.kind with
  | int =>
    cases v with
    | immediate n => exact .refl _
    | block tag fields => exact .of_blank rfl
  | float =>
    cases v.float? with
    | some x => exact .refl _
    | none => exact .of_blank rfl
  | array => exact .of_blank rfl

theorem decodeImmediate (env env' : Environment) (t : InductiveType) (ordinal : Int) :
    Persists DecodeError.IsUndeclared DecodeError.blank (t.decodeImmediate env ordinal)
      (t.decodeImmediate env' ordinal) := by
  unfold InductiveType.decodeImmediate
  cases (if 0 ≤ ordinal then t.layout.constant? ordinal.toNat else none) with
  | some s => exact .refl _
  | none => exact .of_blank rfl

theorem blockSignature (env env' : Environment) (t : InductiveType) (tag : UInt8) (count : Nat) :
    Persists DecodeError.IsUndeclared DecodeError.blank (t.blockSignature env tag count)
      (t.blockSignature env' tag count) := by
  unfold InductiveType.blockSignature
  cases t.layout.block? tag with
  | none => exact .of_blank rfl
  | some s =>
    by_cases fits : count = s.arity
    · simp only [if_pos fits]
      exact .refl _
    · simp only [if_neg fits]
      exact .of_blank rfl

end Persists

/-- All that decoding asks for on its way, in one environment and with one budget, persists in
another one and with another budget. -/
structure PartsPersist (undeclared : DecodeError → Prop) (blank : DecodeError → DecodeError)
    (env env' : Environment) (fuel fuel' : Nat) : Prop where
  primitive (t : PrimitiveUse) (v : Value) :
    Persists undeclared blank (t.decode env v) (t.decode env' v)
  immediate (t : InductiveType) (ordinal : Int) :
    Persists undeclared blank (t.decodeImmediate env ordinal) (t.decodeImmediate env' ordinal)
  signature (t : InductiveType) (tag : UInt8) (count : Nat) :
    Persists undeclared blank (t.blockSignature env tag count) (t.blockSignature env' tag count)
  fieldTypes (t : InductiveType) (s : Signature) :
    Persists undeclared blank (t.fieldTypes env s) (t.fieldTypes env' s)
  fieldType (type : Term) :
    Persists undeclared blank ((Readable.ofType env fuel type).mapError .type)
      ((Readable.ofType env' fuel' type).mapError .type)

namespace PartsPersist

variable {undeclared : DecodeError → Prop} {blank : DecodeError → DecodeError}
  {env env' : Environment} {fuel fuel' : Nat}

mutual

/-- What is decoded from such parts persists. -/
theorem decode (parts : PartsPersist undeclared blank env env' fuel fuel') (r : Readable) :
    ∀ v : Value, Persists undeclared blank (r.decode env fuel v) (r.decode env' fuel' v)
  | .immediate n => by
    cases r with
    | primitive t =>
      rw [Readable.decode, Readable.decode]
      exact parts.primitive t (.immediate n)
    | inductiveType t =>
      rw [Readable.decode, Readable.decode]
      exact parts.immediate t n
  | .block tag fields => by
    cases r with
    | primitive t =>
      rw [Readable.decode, Readable.decode]
      exact parts.primitive t (.block tag fields)
    | inductiveType t =>
      rw [Readable.decode, Readable.decode]
      refine (parts.signature t tag fields.length).bind fun s _ => ?_
      refine (parts.fieldTypes t s).bind fun types _ => ?_
      exact (decodeFields parts t.params types fields).bind fun args _ => .refl _

theorem decodeFields (parts : PartsPersist undeclared blank env env' fuel fuel')
    (context types : List Term) : ∀ vs : List Value,
      Persists undeclared blank (Readback.decodeFields env fuel context types vs)
        (Readback.decodeFields env' fuel' context types vs)
  | [] => by
    rw [Readback.decodeFields, Readback.decodeFields]
    exact .refl _
  | v :: vs => by
    cases types with
    | nil =>
      rw [Readback.decodeFields, Readback.decodeFields]
      exact .refl _
    | cons type types =>
      rw [Readback.decodeFields, Readback.decodeFields]
      refine (parts.fieldType _).bind fun r _ => ?_
      refine (decode parts r v).bind fun field _ => ?_
      exact decodeFields parts (context ++ [field]) types vs

end

end PartsPersist

/-- The steps after the first one are those of the term that it leads to. -/
theorem Term.whnfWithin_eq_bind (env : Environment) (budget remaining : Nat) (t : Term) :
    t.whnfWithin env budget remaining = t.headStep env >>= fun next? =>
      match next?, remaining with
      | none, _ => .ok t
      | some _, 0 => .error (.outOfFuel budget)
      | some next, remaining + 1 => next.whnfWithin env budget remaining := by
  rw [whnfWithin.eq_def]
  rcases t.headStep env with e | _ | next
  · rfl
  · rfl
  · cases remaining <;> rfl

namespace Environment.Extends

variable {env env' : Environment}

/-- A constant does not become a primitive type. -/
theorem primitive?_eq_none (grown : env.Extends env') {name : Name} {d : Definition}
    (primitive : env.primitive? name = none) (defined : env.definition? name = some d) :
    env'.primitive? name = none := by
  by_contra shadowed
  obtain ⟨kind, found⟩ := Option.ne_none_iff_exists'.mp shadowed
  cases defined.symm.trans (grown.unshadowed name kind found primitive)

/-! ## Reduction -/

theorem headStep (grown : env.Extends env') (t : Term) :
    Persists ReductionError.IsUndeclared id (t.headStep env) (t.headStep env') := by
  unfold Term.headStep
  split
  · exact .refl _
  · exact .refl _
  next name levels args spine =>
    cases primitive : env.primitive? name with
    | some kind =>
      rw [grown.primitives name kind primitive]
      exact .refl _
    | none =>
      cases defined : env.definition? name with
      | none => exact .of_undeclared trivial
      | some d =>
        rw [grown.primitive?_eq_none primitive defined, grown.definitions name d defined]
        exact .refl _
  · exact .refl _

theorem whnfWithin (grown : env.Extends env') (budget remaining : Nat) (t : Term) :
    Persists ReductionError.IsUndeclared id (t.whnfWithin env budget remaining)
      (t.whnfWithin env' budget remaining) := by
  induction remaining generalizing t with
  | zero =>
    rw [Term.whnfWithin_eq_bind, Term.whnfWithin_eq_bind]
    refine (grown.headStep t).bind fun next? _ => ?_
    cases next? <;> exact .refl _
  | succ remaining ih =>
    rw [Term.whnfWithin_eq_bind, Term.whnfWithin_eq_bind]
    refine (grown.headStep t).bind fun next? _ => ?_
    cases next? with
    | none => exact .refl _
    | some next => exact ih next

/-- Normal forms persist. -/
theorem whnf (grown : env.Extends env') (fuel : Nat) (t : Term) :
    Persists ReductionError.IsUndeclared id (t.whnf env fuel) (t.whnf env' fuel) :=
  grown.whnfWithin fuel fuel t

/-! ## Classification -/

theorem ofInductive? (grown : env.Extends env') (t : Term) :
    Persists TypeError.IsUndeclared TypeError.blank (TypeHead.ofInductive? env t)
      (TypeHead.ofInductive? env' t) := by
  unfold TypeHead.ofInductive?
  split
  next name levels args spine =>
    cases found : env.inductive? name with
    | none => exact .of_undeclared trivial
    | some d =>
      rw [grown.inductives name d found]
      by_cases few : args.length < d.params.length
      · simp only [if_pos few]
        exact .of_blank rfl
      · simp only [if_neg few]
        exact .refl _
  · exact .refl _

/-- A constant in normal form is no primitive type later that it is not already. -/
theorem ofPrimitive?_eq (grown : env.Extends env') {t : Term} (normal : t.HeadNormal env) :
    TypeHead.ofPrimitive? env' t = TypeHead.ofPrimitive? env t := by
  unfold TypeHead.ofPrimitive?
  split
  next name levels args spine =>
    have same : env'.primitive? name = env.primitive? name := by
      cases primitive : env.primitive? name with
      | some kind => exact grown.primitives name kind primitive
      | none =>
        unfold Term.HeadNormal Term.headStep at normal
        simp only [spine, primitive] at normal
        cases defined : env.definition? name with
        | none =>
          rw [defined] at normal
          cases normal
        | some d => exact grown.primitive?_eq_none primitive defined
    rw [same]
  · rfl

theorem typeHead (grown : env.Extends env') (fuel : Nat) (type : Term) :
    Persists TypeError.IsUndeclared TypeError.blank (TypeHead.ofType env fuel type)
      (TypeHead.ofType env' fuel type) := by
  have reduced : Persists TypeError.IsUndeclared TypeError.blank
      ((type.whnf env fuel).mapError (.reduction (env.pretty type)))
      ((type.whnf env' fuel).mapError (.reduction (env'.pretty type))) :=
    (grown.whnf fuel type).mapError (fun _ unknown => unknown) fun _ _ same =>
      congrArg (TypeError.reduction "") same
  rw [TypeHead.ofType_eq_bind, TypeHead.ofType_eq_bind]
  refine reduced.bind fun t whnf => ?_
  have normal := (Term.headSteps_of_whnf (mapError_eq_ok.mp whnf)).2
  unfold TypeHead.ofNormal
  refine (grown.ofInductive? t).bind fun found? _ => ?_
  cases found? with
  | some found => exact .refl _
  | none =>
    dsimp only
    rw [grown.ofPrimitive?_eq normal]
    cases TypeHead.ofPrimitive? env t with
    | some found => exact .refl _
    | none => exact .of_blank rfl

/-- Readable types persist. -/
theorem ofType (grown : env.Extends env') (fuel : Nat) (type : Term) :
    Persists TypeError.IsUndeclared TypeError.blank (Readable.ofType env fuel type)
      (Readable.ofType env' fuel type) := by
  unfold Readable.ofType
  exact (grown.typeHead fuel type).bind fun head _ => .refl _

theorem ofResultType (grown : env.Extends env') (fuel : Nat) (type : Term) :
    Persists TypeError.IsUndeclared TypeError.blank (Readable.ofResultType env fuel type)
      (Readable.ofResultType env' fuel type) := by
  unfold Readable.ofResultType
  exact (grown.ofType fuel type).bind fun r _ => .asResult env env' r

/-! ## Decoding -/

theorem fieldTypes (grown : env.Extends env') (t : InductiveType) (s : Signature) :
    Persists DecodeError.IsUndeclared DecodeError.blank (t.fieldTypes env s)
      (t.fieldTypes env' s) := by
  unfold InductiveType.fieldTypes
  cases found : env.constructor? t.head s.index with
  | none => exact .of_undeclared trivial
  | some c =>
    obtain ⟨d, declared, constructor⟩ := Option.bind_eq_some_iff.mp found
    have kept : env'.constructor? t.head s.index = some c :=
      Option.bind_eq_some_iff.mpr ⟨d, grown.inductives _ d declared, constructor⟩
    rw [kept]
    exact .refl _

theorem ofFieldType (grown : env.Extends env') (fuel : Nat) (type : Term) :
    Persists DecodeError.IsUndeclared DecodeError.blank
      ((Readable.ofType env fuel type).mapError .type)
      ((Readable.ofType env' fuel type).mapError .type) :=
  (grown.ofType fuel type).mapError (fun _ unknown => unknown) fun _ _ same =>
    congrArg DecodeError.type same

/-- All that decoding asks for in the environment persists in the extension. -/
theorem partsPersist (grown : env.Extends env') (fuel : Nat) :
    PartsPersist DecodeError.IsUndeclared DecodeError.blank env env' fuel fuel where
  primitive := .decodePrimitive env env'
  immediate := .decodeImmediate env env'
  signature := .blockSignature env env'
  fieldTypes := grown.fieldTypes
  fieldType := grown.ofFieldType fuel

/-- Decoded terms persist. -/
theorem decode (grown : env.Extends env') (fuel : Nat) (r : Readable) (v : Value) :
    Persists DecodeError.IsUndeclared DecodeError.blank (r.decode env fuel v)
      (r.decode env' fuel v) :=
  (grown.partsPersist fuel).decode r v

end Environment.Extends

/-- An extension changes no answer. Whatever is reduced, classified or decoded in an environment is
so in every extension of it, with the same result. What fails there fails in the extension as well,
with the same error up to printed types, unless a name was not declared. -/
theorem answers_persist {env env' : Environment} (grown : env.Extends env') (fuel : Nat) :
    (∀ t : Term, Persists ReductionError.IsUndeclared id (t.whnf env fuel) (t.whnf env' fuel)) ∧
    (∀ type, Persists TypeError.IsUndeclared TypeError.blank
      (Readable.ofType env fuel type) (Readable.ofType env' fuel type)) ∧
    (∀ type, Persists TypeError.IsUndeclared TypeError.blank
      (Readable.ofResultType env fuel type) (Readable.ofResultType env' fuel type)) ∧
    (∀ (r : Readable) v, Persists DecodeError.IsUndeclared DecodeError.blank
      (r.decode env fuel v) (r.decode env' fuel v)) ∧
    ∀ type v, Persists DecodeError.IsUndeclared DecodeError.blank
      (decodeAt env fuel type v) (decodeAt env' fuel type v) := by
  refine ⟨grown.whnf fuel, grown.ofType fuel, grown.ofResultType fuel, grown.decode fuel, ?_⟩
  intro type v
  have classified : Persists DecodeError.IsUndeclared DecodeError.blank
      ((Readable.ofResultType env fuel type).mapError .type)
      ((Readable.ofResultType env' fuel type).mapError .type) :=
    (grown.ofResultType fuel type).mapError (fun _ unknown => unknown) fun _ _ same =>
      congrArg DecodeError.type same
  exact classified.bind fun r _ => grown.decode fuel r v

namespace Prelude

/-- The prelude with a primitive type of words and a type of chains of at most one word. -/
def withChains : Environment :=
  (environment.declare (.primitive ⟨⟨"word"⟩, .int⟩)).declare
    (.inductiveType { name := ⟨"chain"⟩
                      constructors := [⟨⟨"end"⟩, []⟩, ⟨⟨"link"⟩, [.const ⟨"word"⟩ .empty]⟩] })

theorem extends_withChains : environment.Extends withChains := by
  have words : (Declaration.primitive ⟨⟨"word"⟩, .int⟩).IsNew environment := ⟨rfl, rfl⟩
  exact (Environment.extends_declare words).trans (Environment.extends_declare rfl)

/-- With chains, numbers are decoded as they were without them and arrays are refused as they were.
Chains are decoded then only, since they were not declared before. -/
theorem answers_persist_withChains :
    environment.Extends withChains ∧
      decodeAt withChains defaultFuel (indTerm natName) (.block 0 [.immediate 0]) = .ok (nat 1) ∧
      (∃ e, decodeAt withChains defaultFuel (.const arrayName .empty) (.immediate 0) = .error e ∧
        e.blank = .type (.unsupportedPrimitive "" .array)) ∧
      decodeAt withChains defaultFuel (indTerm ⟨"chain"⟩) (.block 0 [.immediate 5]) =
        .ok ((ctorTerm ⟨"chain"⟩ 1).mkApp [.int 5]) := by
  obtain ⟨-, -, -, -, persists⟩ := answers_persist extends_withChains defaultFuel
  have number := (persists (indTerm natName) (.block 0 [.immediate 0])).ok (nat 1) rfl
  have array := (persists (.const arrayName .empty) (.immediate 0)).error
    (.type (.unsupportedPrimitive "PArray.array" .array)) (by decide +kernel)
    (fun unknown => unknown)
  exact ⟨extends_withChains, number, array, rfl⟩

end Prelude

end Readback
