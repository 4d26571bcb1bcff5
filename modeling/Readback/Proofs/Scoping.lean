import Readback.Proofs.HeadReduction
import Readback.Proofs.RoundTrip

/-!
# Decoding stays in scope

In an environment whose declarations refer to nothing but themselves, neither reduction nor
classification nor decoding lets a variable out of the scope of the type that it starts from.

## Main definitions

* `Environment.Scoped` — declarations that stay in their scope
* `Asks`, `FieldsAsk` — the types of fields that decoding comes to

## Main statements

* `Term.HeadStep.closedAbove` — a step at the head stays in scope
* `exists_asks_of_decode_error`, `Asks.exists_ofType` — decoding asks whether each type that it
  comes to is readable, and no other
* `decode_closed` — whatever decoding comes to stays in scope
-/

namespace Readback

variable {env : Environment} {fuel d : Nat}

/-- Bodies of constants are closed, and the type of a field refers to no more than the parameters
and the fields before it. -/
structure Environment.Scoped (env : Environment) : Prop where
  bodies : ∀ {name : Name} {body : Term}, env.Unfolds name body → body.isClosed
  fields : ∀ {name : Name} {decl : InductiveDecl} {index : Nat} {c : ConstructorDecl} {k : Nat}
    {type : Term}, env.inductive? name = some decl → decl.constructor? index = some c →
      c.fields[k]? = some type → type.closedAbove (decl.params.length + k)

/-! ## Reduction -/

/-- The scope of an application is that of its parts. -/
theorem Term.closedAbove_spine {t head : Term} {args : List Term} (spine : t.spine = (head, args)) :
    t.closedAbove d ↔ head.closedAbove d ∧ ∀ arg ∈ args, arg.closedAbove d := by
  unfold Term.spine at spine
  split at spine
  · obtain ⟨rfl, rfl⟩ := Prod.mk.inj spine
    exact closedAbove_app
  · obtain ⟨rfl, rfl⟩ := Prod.mk.inj spine
    simp

/-- A step at the head stays in scope. -/
theorem Term.HeadStep.closedAbove {t s : Term} (inScope : env.Scoped) (step : HeadStep env t s)
    (closed : t.closedAbove d) : s.closedAbove d := by
  cases step with
  | beta spine =>
    obtain ⟨closedFunction, closedArgs⟩ := (closedAbove_spine spine).mp closed
    simp only [Term.closedAbove, Bool.and_eq_true] at closedFunction
    obtain ⟨closedArg, closedRest⟩ := List.forall_mem_cons.mp closedArgs
    refine closedAbove_mkApp.mpr ⟨closedAbove_instantiate ?_ (by simpa using closedArg), closedRest⟩
    simpa [Nat.add_comm] using closedFunction.2
  | zeta spine =>
    obtain ⟨closedLet, closedArgs⟩ := (closedAbove_spine spine).mp closed
    simp only [Term.closedAbove, Bool.and_eq_true] at closedLet
    refine closedAbove_mkApp.mpr
      ⟨closedAbove_instantiate ?_ (by simpa using closedLet.1.1), closedArgs⟩
    simpa [Nat.add_comm] using closedLet.2
  | delta spine unfolds =>
    obtain ⟨-, closedArgs⟩ := (closedAbove_spine spine).mp closed
    have closedBody := closedAbove_mono (inScope.bodies unfolds) (Nat.zero_le d)
    exact closedAbove_mkApp.mpr ⟨closedBody, closedArgs⟩

/-- The normal form of a term stays in scope. -/
theorem Term.closedAbove_whnf {t s : Term} (inScope : env.Scoped) (closed : t.closedAbove d)
    (found : t.whnf env fuel = .ok s) : s.closedAbove d := by
  obtain ⟨steps, -⟩ := headSteps_of_whnf found
  clear found
  induction steps with
  | refl => exact closed
  | tail _ step ih => exact step.closedAbove inScope ih

/-! ## Classification -/

/-- The parameters of a readable type. -/
def Readable.params : Readable → List Term
  | inductiveType t => t.params
  | primitive t => t.params

theorem Readable.closedAbove_toTerm (r : Readable) :
    r.toTerm.closedAbove d ↔ ∀ param ∈ r.params, param.closedAbove d := by
  cases r <;> simp [toTerm, params, Term.closedAbove]

/-- The parameters of a classified type stay in scope. -/
theorem Readable.closedAbove_params {type : Term} {r : Readable} (inScope : env.Scoped)
    (closed : type.closedAbove d) (classified : ofType env fuel type = .ok r) :
    ∀ param ∈ r.params, param.closedAbove d := by
  obtain ⟨t, whnf, readOff⟩ := ofType_eq_ok_iff.mp classified
  have closedForm := Term.closedAbove_whnf inScope closed whnf
  cases readOff with
  | inductiveType spine found enough supported =>
    -- dropping the indices keeps no other arguments than the term has
    intro param member
    exact ((Term.closedAbove_spine spine).mp closedForm).2 param (List.mem_of_mem_take member)
  | primitive spine found => exact ((Term.closedAbove_spine spine).mp closedForm).2

/-! ## Inhabitants -/

/-- The types of fields are in the scope of a context of `n` terms and of the fields before them. -/
def FieldsScoped (n : Nat) (types : List Term) : Prop :=
  ∀ (k : Nat) (type : Term), types[k]? = some type → type.closedAbove (n + k)

theorem FieldsScoped.tail {n : Nat} {type : Term} {types : List Term}
    (fields : FieldsScoped n (type :: types)) : FieldsScoped (n + 1) types := by
  intro k type' atIndex
  have closed := fields (k + 1) type' atIndex
  rwa [Nat.add_right_comm]

/-- The type of the first field is in scope once it is filled in. -/
theorem FieldsScoped.head {context types : List Term} {type : Term}
    (fields : FieldsScoped context.length (type :: types))
    (closed : ∀ term ∈ context, term.closedAbove d) : (type.instantiate context).closedAbove d := by
  refine Term.closedAbove_instantiate ?_ closed
  exact Term.closedAbove_mono (fields 0 type rfl) (Nat.le_add_right _ d)

theorem forall_mem_concat {context : List Term} {field : Term}
    (closed : ∀ term ∈ context, term.closedAbove d) (closedField : field.closedAbove d) :
    ∀ term ∈ context ++ [field], term.closedAbove d := by
  intro term member
  rcases List.mem_append.mp member with early | last
  · exact closed term early
  · rwa [List.mem_singleton.mp last]

/-- The fields of a constructor of a classified type are in the scope of its parameters. -/
theorem Environment.Scoped.fieldTypes {type : Term} {t : InductiveType} {index : Nat}
    {c : ConstructorDecl} (inScope : env.Scoped)
    (classified : Readable.ofType env fuel type = .ok (.inductiveType t))
    (declared : env.constructor? t.head index = some c) :
    FieldsScoped t.params.length c.fields := by
  obtain ⟨decl, declares⟩ := Readable.declares_of_ofType classified
  rw [declares.constructor?_eq] at declared
  intro k type atIndex
  rw [declares.params_length]
  exact inScope.fields declares.found declared atIndex

mutual

/-- A canonical inhabitant stays in the scope of its type. -/
theorem Inhabits.closedAbove (inScope : env.Scoped) {type : Term} : ∀ {r : Readable} {t : Term},
    Inhabits env fuel r t → Readable.ofType env fuel type = .ok r → type.closedAbove d →
      t.closedAbove d
  | _, _, .int n kind, _, _ => rfl
  | _, _, .float x kind, _, _ => rfl
  | _, _, .constructor index fields declared inhabitants, classified, closed => by
    have closedParams := Readable.closedAbove_params inScope closed classified
    have closedArgs := inhabitants.closedAbove inScope closedParams
      (inScope.fieldTypes classified declared)
    exact Term.closedAbove_mkApp.mpr ⟨rfl, closedArgs⟩

/-- Canonical inhabitants of fields stay in scope, together with their context. -/
theorem FieldsInhabit.closedAbove (inScope : env.Scoped) : ∀ {context types fields : List Term},
    FieldsInhabit env fuel context types fields → (∀ term ∈ context, term.closedAbove d) →
      FieldsScoped context.length types → ∀ term ∈ context ++ fields, term.closedAbove d
  | context, _, _, .nil, closed, _ => by rwa [List.append_nil]
  | context, type :: types, field :: fields, .cons classified inhabits rest, closed, typed => by
    have closedField := inhabits.closedAbove inScope classified (typed.head closed)
    -- the context grows by the field, as the scope of the types behind it does
    have closedRest := rest.closedAbove inScope (forall_mem_concat closed closedField) (by
      rw [List.length_append]
      exact typed.tail)
    rwa [List.append_assoc] at closedRest

end

/-! ## Decoding -/

mutual

/-- Decoding a value at a readable type comes to the type of a field: that of a field of the value,
or one that decoding the value of a field comes to. -/
inductive Asks (env : Environment) (fuel : Nat) : Readable → Value → Term → Prop
  | block {t : InductiveType} {tag : UInt8} {fields : List Value} {s : Signature}
      {types : List Term} {asked : Term}
      (signature : t.blockSignature env tag fields.length = .ok s)
      (typed : t.fieldTypes env s = .ok types)
      (asks : FieldsAsk env fuel t.params types fields asked) :
      Asks env fuel (.inductiveType t) (.block tag fields) asked

/-- Decoding fields in a context comes to the type of the first of them, filled in from the context.
It goes on with the value of the field and, once that is decoded, with the other fields. -/
inductive FieldsAsk (env : Environment) (fuel : Nat) :
    List Term → List Term → List Value → Term → Prop
  | first {context types : List Term} {type : Term} {v : Value} {vs : List Value} :
      FieldsAsk env fuel context (type :: types) (v :: vs) (type.instantiate context)
  | within {context types : List Term} {type asked : Term} {v : Value} {vs : List Value}
      {r : Readable} (classified : Readable.ofType env fuel (type.instantiate context) = .ok r)
      (asks : Asks env fuel r v asked) : FieldsAsk env fuel context (type :: types) (v :: vs) asked
  | later {context types : List Term} {type asked field : Term} {v : Value} {vs : List Value}
      {r : Readable} (classified : Readable.ofType env fuel (type.instantiate context) = .ok r)
      (decoded : r.decode env fuel v = .ok field)
      (asks : FieldsAsk env fuel (context ++ [field]) types vs asked) :
      FieldsAsk env fuel context (type :: types) (v :: vs) asked

end

/-- A primitive type is complained about where it is not the type of a result. -/
theorem PrimitiveUse.asResult_of_decode_error {t : PrimitiveUse} {v : Value} {e : TypeError}
    (failed : t.decode env v = .error (.type e)) :
    (Readable.primitive t).asResult env = .error e := by
  obtain ⟨head, kind, levels, params⟩ := t
  cases kind with
  | int => cases v <;> simp [decode, misshapen] at failed
  | float => cases read : v.float? <;> simp [decode, misshapen, read] at failed
  | array =>
    obtain rfl := DecodeError.type.inj (Except.error.inj failed)
    rfl

mutual

/-- Decoding complains about a type only where it has come to one whose values are not read back. -/
theorem exists_asks_of_decode_error {type : Term} {e : TypeError} : ∀ {r : Readable} {v : Value},
    Readable.ofType env fuel type = .ok r → r.decode env fuel v = .error (.type e) →
      Readable.ofResultType env fuel type = .error e ∨
        ∃ asked, Asks env fuel r v asked ∧ Readable.ofResultType env fuel asked = .error e
  | .primitive t, .immediate n, classified, failed => by
    rw [Readable.decode] at failed
    exact .inl (bind_eq_error.mpr
      (.inr ⟨_, classified, PrimitiveUse.asResult_of_decode_error failed⟩))
  | .primitive t, .block tag values, classified, failed => by
    rw [Readable.decode] at failed
    exact .inl (bind_eq_error.mpr
      (.inr ⟨_, classified, PrimitiveUse.asResult_of_decode_error failed⟩))
  | .inductiveType t, .immediate ordinal, _, failed => by
    rw [Readable.decode, InductiveType.decodeImmediate] at failed
    split at failed <;> cases failed
  | .inductiveType t, .block tag values, classified, failed => by
    obtain ⟨d, declares⟩ := Readable.declares_of_ofType classified
    rw [Readable.decode] at failed
    obtain failed | ⟨s, signature, failed⟩ := bind_eq_error.mp failed
    · unfold InductiveType.blockSignature at failed
      split at failed
      · cases failed
      · split at failed <;> cases failed
    obtain ⟨numbered, -⟩ := InductiveType.block_of_blockSignature declares signature
    obtain ⟨-, c, signs⟩ := Layout.exists_signs_of_block numbered
    have declared := signs.declared
    rw [← declares.constructor?_eq] at declared
    have typed : t.fieldTypes env s = .ok c.fields := by
      rw [InductiveType.fieldTypes, declared]
    obtain failed | ⟨types, typed', failed⟩ := bind_eq_error.mp failed
    · cases typed.symm.trans failed
    obtain failed | ⟨args, -, failed⟩ := bind_eq_error.mp failed
    · obtain ⟨asked, asks, unreadable⟩ := exists_fieldsAsk_of_decodeFields_error failed
      exact .inr ⟨asked, .block signature typed' asks, unreadable⟩
    · cases failed

/-- So it is for decoding fields. -/
theorem exists_fieldsAsk_of_decodeFields_error {e : TypeError} :
    ∀ {values : List Value} {context types : List Term},
      decodeFields env fuel context types values = .error (.type e) →
        ∃ asked, FieldsAsk env fuel context types values asked ∧
          Readable.ofResultType env fuel asked = .error e
  | [], _, _, failed => by cases failed
  | _ :: _, _, [], failed => by cases failed
  | v :: values, context, type :: types, failed => by
    rw [decodeFields] at failed
    obtain failed | ⟨r, classified, failed⟩ := bind_eq_error.mp failed
    · obtain ⟨cause, unclassified, same⟩ := mapError_eq_error.mp failed
      obtain rfl := DecodeError.type.inj same
      exact ⟨_, .first, bind_eq_error.mpr (.inl unclassified)⟩
    have classified := mapError_eq_ok.mp classified
    obtain failed | ⟨field, decoded, failed⟩ := bind_eq_error.mp failed
    · obtain unreadable | ⟨asked, asks, unreadable⟩ := exists_asks_of_decode_error classified failed
      · exact ⟨_, .first, unreadable⟩
      · exact ⟨asked, .within classified asks, unreadable⟩
    · obtain ⟨asked, asks, unreadable⟩ := exists_fieldsAsk_of_decodeFields_error failed
      exact ⟨asked, .later classified decoded asks, unreadable⟩

end

mutual

/-- Where decoding answers a term, all types that it has come to are readable. -/
theorem Asks.exists_ofType : ∀ {r : Readable} {v : Value} {t asked : Term},
    Asks env fuel r v asked → r.decode env fuel v = .ok t →
      ∃ r', Readable.ofType env fuel asked = .ok r'
  | _, _, _, _, .block signature typed asks, decoded => by
    rw [Readable.decode] at decoded
    obtain ⟨s', signature', decoded⟩ := bind_eq_ok.mp decoded
    obtain rfl := Except.ok.inj (signature.symm.trans signature')
    obtain ⟨types', typed', decoded⟩ := bind_eq_ok.mp decoded
    obtain rfl := Except.ok.inj (typed.symm.trans typed')
    obtain ⟨args, decodedFields, -⟩ := bind_eq_ok.mp decoded
    exact asks.exists_ofType decodedFields

/-- So they are where fields are decoded. -/
theorem FieldsAsk.exists_ofType : ∀ {context types args : List Term} {values : List Value}
    {asked : Term}, FieldsAsk env fuel context types values asked →
      decodeFields env fuel context types values = .ok args →
        ∃ r, Readable.ofType env fuel asked = .ok r
  | _, _, _, _, _, asks, decoded => by
    cases asks with
    | first =>
      rw [decodeFields] at decoded
      obtain ⟨r, classified, -⟩ := bind_eq_ok.mp decoded
      exact ⟨r, mapError_eq_ok.mp classified⟩
    | within classified asks =>
      rw [decodeFields] at decoded
      obtain ⟨r', classified', decoded⟩ := bind_eq_ok.mp decoded
      obtain rfl := Except.ok.inj (classified.symm.trans (mapError_eq_ok.mp classified'))
      obtain ⟨field, decodedField, -⟩ := bind_eq_ok.mp decoded
      exact asks.exists_ofType decodedField
    | later classified decodedField asks =>
      rw [decodeFields] at decoded
      obtain ⟨r', classified', decoded⟩ := bind_eq_ok.mp decoded
      obtain rfl := Except.ok.inj (classified.symm.trans (mapError_eq_ok.mp classified'))
      obtain ⟨field', decodedField', decoded⟩ := bind_eq_ok.mp decoded
      obtain rfl := Except.ok.inj (decodedField.symm.trans decodedField')
      exact asks.exists_ofType decoded

end

mutual

/-- Decoding comes to no type out of scope. -/
theorem Asks.closedAbove (inScope : env.Scoped) {type : Term} :
    ∀ {r : Readable} {v : Value} {asked : Term}, Asks env fuel r v asked →
      Readable.ofType env fuel type = .ok r → type.closedAbove d → asked.closedAbove d
  | _, _, _, .block signature typed asks, classified, closed => by
    have closedParams := Readable.closedAbove_params inScope closed classified
    unfold InductiveType.fieldTypes at typed
    split at typed
    next c declared =>
      obtain rfl := Except.ok.inj typed
      exact asks.closedAbove inScope closedParams (inScope.fieldTypes classified declared)
    · cases typed

/-- Nor does decoding fields, if their types are in the scope of the context. -/
theorem FieldsAsk.closedAbove (inScope : env.Scoped) :
    ∀ {context types : List Term} {values : List Value} {asked : Term},
      FieldsAsk env fuel context types values asked → (∀ term ∈ context, term.closedAbove d) →
      FieldsScoped context.length types → asked.closedAbove d
  | _, _, _, _, .first, closed, typed => typed.head closed
  | _, _, _, _, .within classified asks, closed, typed =>
    asks.closedAbove inScope classified (typed.head closed)
  | _, _, _, _, .later classified decoded asks, closed, typed => by
    have inhabits := (inhabits_of_decode classified decoded).1
    have closedField := inhabits.closedAbove inScope classified (typed.head closed)
    refine asks.closedAbove inScope (forall_mem_concat closed closedField) ?_
    rw [List.length_append]
    exact typed.tail

end

/-- Nothing leaves the scope of a type: not its normal form, nor the parameters and the term of its
classification, nor the types of fields that decoding a value comes to, nor what it answers. -/
theorem decode_closed {type : Term} (inScope : env.Scoped) (closed : type.closedAbove d) :
    (∀ fuel t, type.whnf env fuel = .ok t → t.closedAbove d) ∧
    (∀ fuel r, Readable.ofType env fuel type = .ok r →
      (∀ param ∈ r.params, param.closedAbove d) ∧ r.toTerm.closedAbove d) ∧
    (∀ fuel r v asked, Readable.ofType env fuel type = .ok r → Asks env fuel r v asked →
      asked.closedAbove d) ∧
    ∀ fuel v t, decodeAt env fuel type v = .ok t → t.closedAbove d := by
  refine ⟨?_, ?_, ?_, ?_⟩
  · intro fuel t whnf
    exact Term.closedAbove_whnf inScope closed whnf
  · intro fuel r classified
    have closedParams := r.closedAbove_params inScope closed classified
    exact ⟨closedParams, r.closedAbove_toTerm.mpr closedParams⟩
  · intro fuel r v asked classified asks
    exact asks.closedAbove inScope classified closed
  · intro fuel v t decoded
    obtain ⟨r, classified, inhabits, -⟩ := decodeAt_eq_ok_iff.mp decoded
    exact inhabits.closedAbove inScope (Readable.ofType_of_ofResultType classified) closed

namespace Prelude

/-- The declarations of the prelude refer to no more than they may. -/
theorem environment_scoped : environment.Scoped where
  bodies := by
    rintro name body ⟨-, definition, found, -⟩
    cases found
  fields := by
    intro name decl index c k type found declared atIndex
    have all : ∀ decl ∈ environment.inductives, ∀ c ∈ decl.constructors,
        ∀ (k : Nat) (bound : k < c.fields.length),
          c.fields[k].closedAbove (decl.params.length + k) := by
      decide
    obtain ⟨bound, rfl⟩ := List.getElem?_eq_some_iff.mp atIndex
    exact all decl (List.mem_of_find?_eq_some found) c (List.mem_of_getElem? declared) k bound

/-- The native value of the pair. -/
def pairValue : Value :=
  .block 0 [.block 0 [.block 0 [.immediate 0]],
    .block 0 [.block 0 [.immediate 0], .block 0 [.immediate 0, .immediate 0]]]

/-- The term that a dependent pair decodes to is closed, as its type is. -/
theorem decode_closed_pair :
    environment.Scoped ∧ (Readable.inductiveType pairType).toTerm.closedAbove 0 ∧
      decodeAt environment defaultFuel (Readable.inductiveType pairType).toTerm pairValue =
        .ok pair ∧ pair.closedAbove 0 := by
  have closed : (Readable.inductiveType pairType).toTerm.closedAbove 0 := by decide
  have decoded : decodeAt environment defaultFuel (Readable.inductiveType pairType).toTerm
      pairValue = .ok pair := rfl
  obtain ⟨-, -, -, closedDecoded⟩ := decode_closed environment_scoped closed
  exact ⟨environment_scoped, closed, decoded, closedDecoded defaultFuel pairValue pair decoded⟩

end Prelude

end Readback
