import Readback.Proofs.Budget
import Readback.Proofs.Instantiation
import Readback.Proofs.Scoping

/-!
# Spine form

Terms are built, filled in, reduced, classified and decoded in spine form, if the environment and
the term that one starts from are in spine form. A term gets out of it nowhere, not even where an
application takes the place of a variable at the head of another one. Lifting by a positive amount
and filling in values bring every term into spine form.

## Main definitions

* `Environment.InSpineForm` — bodies of constants and types of fields in spine form

## Main statements

* `Readable.inSpineForm_params` — classification keeps spine form
* `Readable.inSpineForm_of_decode`, `inSpineForm_of_decodeFields` — decoding keeps spine form
* `operations_keep_spineForm` — every operation on terms keeps spine form
-/

namespace Readback

/-- The bodies that constants unfold to and the types of fields are in spine form. -/
structure Environment.InSpineForm (env : Environment) : Prop where
  bodies : env.SpineBodies
  fields : ∀ {ind : Name} {index : Nat} {c : ConstructorDecl}, env.constructor? ind index = some c →
    ∀ type ∈ c.fields, type.inSpineForm

variable {env : Environment} {fuel : Nat}

/-! ## Terms -/

namespace Term

variable {t : Term}

theorem inSpineForm_lift (spine : t.inSpineForm) (cutoff amount : Nat) :
    (t.lift cutoff amount).inSpineForm := by
  by_cases still : amount = 0
  · rwa [still, lift_zero]
  · exact inSpineForm_lift_of_ne_zero t cutoff still

theorem inSpineForm_instantiate {values : List Term} (spine : t.inSpineForm)
    (each : ∀ value ∈ values, value.inSpineForm) : (t.instantiate values).inSpineForm := by
  by_cases none : values = []
  · rwa [none, instantiate_nil]
  · exact inSpineForm_instantiate_of_ne_nil t none each

/-- The codomain of a function type is lifted over the binder, and so comes into spine form. -/
theorem inSpineForm_arrow {domain : Term} (spine : domain.inSpineForm) (codomain : Term) :
    (arrow domain codomain).inSpineForm := by
  rw [arrow, inSpineForm, Bool.and_eq_true]
  exact ⟨spine, inSpineForm_lift_one codomain⟩

/-- The arguments of a term in spine form are in spine form. -/
theorem inSpineForm_of_mem_spine {head arg : Term} {args : List Term} (spine : t.inSpineForm)
    (split : t.spine = (head, args)) (member : arg ∈ args) : arg.inSpineForm := by
  obtain ⟨-, -, -, spineArgs⟩ := eq_mkApp_of_spine spine split
  exact spineArgs arg member

end Term

/-! ## Readable types -/

namespace Readable

variable {r : Readable} {type : Term}

/-- The parameters of a classified type are in spine form. -/
theorem inSpineForm_params (bodies : env.SpineBodies) (spine : type.inSpineForm)
    (classified : ofType env fuel type = .ok r) : ∀ param ∈ r.params, param.inSpineForm := by
  obtain ⟨t, whnf, readOff⟩ := ofType_eq_ok_iff.mp classified
  have spineForm := Term.inSpineForm_of_whnf bodies spine whnf
  intro param member
  cases readOff with
  | inductiveType split found enough supported =>
    exact Term.inSpineForm_of_mem_spine spineForm split (List.mem_of_mem_take member)
  | primitive split found => exact Term.inSpineForm_of_mem_spine spineForm split member

/-- The term of a readable type is in spine form if the parameters are. -/
theorem inSpineForm_toTerm (spine : ∀ param ∈ r.params, param.inSpineForm) :
    r.toTerm.inSpineForm := by
  cases r with
  | inductiveType t => exact Term.inSpineForm_mkApp rfl spine
  | primitive t => exact Term.inSpineForm_mkApp rfl spine

end Readable

/-! ## Decoding -/

/-- Literals have no applications. -/
theorem PrimitiveUse.inSpineForm_of_decode {use : PrimitiveUse} {v : Value} {t : Term}
    (decoded : use.decode env v = .ok t) : t.inSpineForm := by
  have inhabits : Inhabits env 0 (.primitive use) t := (inhabits_of_decode decoded).1
  cases inhabits with
  | int n kind => rfl
  | float x kind => rfl

namespace InductiveType

variable {t : InductiveType}

/-- A constant is applied to the parameters of its type. -/
theorem inSpineForm_of_decodeImmediate {ordinal : Int} {term : Term}
    (spine : ∀ param ∈ t.params, param.inSpineForm)
    (decoded : t.decodeImmediate env ordinal = .ok term) : term.inSpineForm := by
  unfold decodeImmediate at decoded
  dsimp only at decoded
  split at decoded
  · obtain rfl := Except.ok.inj decoded
    exact Term.inSpineForm_mkApp rfl spine
  · cases decoded

theorem inSpineForm_of_fieldTypes {s : Signature} {types : List Term} (spine : env.InSpineForm)
    (typed : t.fieldTypes env s = .ok types) : ∀ type ∈ types, type.inSpineForm := by
  unfold fieldTypes at typed
  split at typed
  next declared =>
    obtain rfl := Except.ok.inj typed
    exact spine.fields declared
  · cases typed

end InductiveType

mutual

/-- Decoding at a type whose parameters are in spine form answers terms in spine form. -/
theorem Readable.inSpineForm_of_decode (spineEnv : env.InSpineForm) :
    ∀ {r : Readable} {v : Value} {t : Term}, (∀ param ∈ r.params, param.inSpineForm) →
      r.decode env fuel v = .ok t → t.inSpineForm
  | .primitive use, .immediate n, _, _, decoded => by
    rw [Readable.decode] at decoded
    exact PrimitiveUse.inSpineForm_of_decode decoded
  | .primitive use, .block tag values, _, _, decoded => by
    rw [Readable.decode] at decoded
    exact PrimitiveUse.inSpineForm_of_decode decoded
  | .inductiveType t, .immediate n, _, spineParams, decoded => by
    rw [Readable.decode] at decoded
    exact InductiveType.inSpineForm_of_decodeImmediate spineParams decoded
  | .inductiveType t, .block tag values, _, spineParams, decoded => by
    rw [Readable.decode] at decoded
    obtain ⟨s, -, decoded⟩ := bind_eq_ok.mp decoded
    obtain ⟨types, typed, decoded⟩ := bind_eq_ok.mp decoded
    obtain ⟨args, decodedFields, decoded⟩ := bind_eq_ok.mp decoded
    obtain rfl := Except.ok.inj decoded
    have spineTypes := InductiveType.inSpineForm_of_fieldTypes spineEnv typed
    exact Term.inSpineForm_mkApp rfl
      (inSpineForm_of_decodeFields spineEnv spineParams spineTypes decodedFields)

/-- The decoded fields go into the context, from which the types of the next ones are filled in. -/
theorem inSpineForm_of_decodeFields (spineEnv : env.InSpineForm) :
    ∀ {context types args : List Term} {values : List Value},
      (∀ term ∈ context, term.inSpineForm) → (∀ type ∈ types, type.inSpineForm) →
      decodeFields env fuel context types values = .ok args → ∀ arg ∈ args, arg.inSpineForm
  | context, _, _, [], spineContext, _, decoded => by
    rw [decodeFields] at decoded
    obtain rfl := Except.ok.inj decoded
    exact spineContext
  | context, [], _, _ :: _, spineContext, _, decoded => by
    rw [decodeFields] at decoded
    obtain rfl := Except.ok.inj decoded
    exact spineContext
  | context, type :: types, _, v :: values, spineContext, spineTypes, decoded => by
    rw [decodeFields] at decoded
    obtain ⟨spineType, spineTypes⟩ := List.forall_mem_cons.mp spineTypes
    obtain ⟨r, classified, decoded⟩ := bind_eq_ok.mp decoded
    obtain ⟨field, decodedField, decoded⟩ := bind_eq_ok.mp decoded
    have spineParams := Readable.inSpineForm_params spineEnv.bodies
      (Term.inSpineForm_instantiate spineType spineContext) (mapError_eq_ok.mp classified)
    have spineField := Readable.inSpineForm_of_decode spineEnv spineParams decodedField
    refine inSpineForm_of_decodeFields spineEnv ?_ spineTypes decoded
    exact List.forall_mem_append.mpr ⟨spineContext, List.forall_mem_singleton.mpr spineField⟩

end

/-! ## All operations -/

/-- In an environment in spine form no operation leaves spine form: applying, function types,
lifting, instantiation and reduction do not, nor do the parameters that classification finds, the
term of a readable type and decoding. What is lifted by a positive amount is in spine form in any
case. Applying to some arguments and then to others is applying to all of them, and the arguments
are found again behind those that the term had. -/
theorem operations_keep_spineForm (spineEnv : env.InSpineForm) (fuel : Nat) :
    (∀ (head : Term) args, head.inSpineForm → (∀ arg ∈ args, arg.inSpineForm) →
      (head.mkApp args).inSpineForm) ∧
    (∀ domain codomain : Term, domain.inSpineForm → codomain.inSpineForm →
      (domain.arrow codomain).inSpineForm) ∧
    (∀ (t : Term) cutoff amount, t.inSpineForm → (t.lift cutoff amount).inSpineForm) ∧
    (∀ (t : Term) cutoff amount, amount ≠ 0 → (t.lift cutoff amount).inSpineForm) ∧
    (∀ (t : Term) values, t.inSpineForm → (∀ value ∈ values, value.inSpineForm) →
      (t.instantiate values).inSpineForm) ∧
    (∀ t n : Term, t.inSpineForm → t.whnf env fuel = .ok n → n.inSpineForm) ∧
    (∀ (type : Term) r, type.inSpineForm → Readable.ofType env fuel type = .ok r →
      ∀ param ∈ r.params, param.inSpineForm) ∧
    (∀ r : Readable, (∀ param ∈ r.params, param.inSpineForm) → r.toTerm.inSpineForm) ∧
    (∀ (r : Readable) v t, (∀ param ∈ r.params, param.inSpineForm) →
      r.decode env fuel v = .ok t → t.inSpineForm) ∧
    (∀ (type : Term) v t, type.inSpineForm → decodeAt env fuel type v = .ok t →
      t.inSpineForm) ∧
    (∀ (head : Term) as bs, (head.mkApp as).mkApp bs = head.mkApp (as ++ bs)) ∧
    ∀ (head : Term) args, (head.mkApp args).spine = (head.spine.1, head.spine.2 ++ args) := by
  refine ⟨?_, ?_, ?_, ?_, ?_, ?_, ?_, ?_, ?_, ?_, Term.mkApp_mkApp, Term.spine_mkApp_eq⟩
  · intro head args spineHead spineArgs
    exact Term.inSpineForm_mkApp spineHead spineArgs
  · intro domain codomain spineDomain _
    exact Term.inSpineForm_arrow spineDomain codomain
  · intro t cutoff amount spine
    exact Term.inSpineForm_lift spine cutoff amount
  · intro t cutoff amount moves
    exact Term.inSpineForm_lift_of_ne_zero t cutoff moves
  · intro t values spine spineValues
    exact Term.inSpineForm_instantiate spine spineValues
  · intro t n spine found
    exact Term.inSpineForm_of_whnf spineEnv.bodies spine found
  · intro type r spine classified
    exact Readable.inSpineForm_params spineEnv.bodies spine classified
  · intro r spineParams
    exact Readable.inSpineForm_toTerm spineParams
  · intro r v t spineParams decoded
    exact Readable.inSpineForm_of_decode spineEnv spineParams decoded
  · intro type v t spine decoded
    obtain ⟨r, classified, decoded⟩ := bind_eq_ok.mp decoded
    have classified := Readable.ofType_of_ofResultType (mapError_eq_ok.mp classified)
    have spineParams := Readable.inSpineForm_params spineEnv.bodies spine classified
    exact Readable.inSpineForm_of_decode spineEnv spineParams decoded

namespace Prelude

theorem environment_inSpineForm : environment.InSpineForm where
  bodies := by
    rintro name body ⟨-, definition, found, -⟩
    cases found
  fields := by
    intro ind index c declared type member
    have all : ∀ d ∈ environment.inductives, ∀ c ∈ d.constructors, ∀ type ∈ c.fields,
        type.inSpineForm := by
      decide
    obtain ⟨d, found, atIndex⟩ := Option.bind_eq_some_iff.mp declared
    exact all d (List.mem_of_find?_eq_some found) c (List.mem_of_getElem? atIndex) type member

/-- The type of the second field of a dependent pair has a variable as head, which here becomes an
application. The pairs of this type are decoded in spine form. An empty application of an
application is brought into this form when it is lifted. -/
theorem operations_keep_spineForm_pair :
    environment.InSpineForm ∧
      (((Term.var 1).mkApp [.var 0]).instantiate [smallTypes, pairsWithNat, nat 3]).inSpineForm ∧
      ((Term.app (.app (.var 0) [.var 1]) []).lift 0 1).inSpineForm ∧
      decodeAt environment defaultFuel (Readable.inductiveType pairType).toTerm pairValue =
        .ok pair ∧ pair.inSpineForm := by
  obtain ⟨-, -, -, lifted, instantiated, -, -, -, -, decodes, -, -⟩ :=
    operations_keep_spineForm environment_inSpineForm defaultFuel
  have spineValues : ∀ value ∈ [smallTypes, pairsWithNat, nat 3], value.inSpineForm := by decide
  have decoded : decodeAt environment defaultFuel (Readable.inductiveType pairType).toTerm
      pairValue = .ok pair := rfl
  exact ⟨environment_inSpineForm, instantiated _ _ rfl spineValues,
    lifted _ 0 1 Nat.one_ne_zero, decoded, decodes _ pairValue pair rfl decoded⟩

end Prelude

end Readback
