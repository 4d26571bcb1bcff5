import Readback.Decode
import Readback.Encode
import Readback.Proofs.Layout

/-!
# Canonical inhabitants

The terms that native values stand for at a readable type: literals at the primitive types, and at
an inductive type a constructor of its declaration with the levels and the parameters of the type,
followed by one canonical inhabitant for each field. The type of a field depends on the parameters
and on the fields before it.

## Main definitions

* `Inhabits`, `FieldsInhabit` — canonical inhabitants of a readable type, and of a list of fields

## Main statements

* `Term.encode?_constructor` — the native value of a constructor ignores its parameters
* `Value.float?_eq_some_iff` — exactly the boxed floats are read as floats
-/

namespace Readback

mutual

/-- The term is a literal or a constructor, built as native values of the type are read back. -/
inductive Inhabits (env : Environment) (fuel : Nat) : Readable → Term → Prop
  | int {t : PrimitiveUse} (n : Int) (kind : t.kind = .int) :
      Inhabits env fuel (.primitive t) (.int n)
  | float {t : PrimitiveUse} (x : Float64) (kind : t.kind = .float) :
      Inhabits env fuel (.primitive t) (.float x)
  | constructor {t : InductiveType} (index : Nat) {c : ConstructorDecl} (fields : List Term)
      (declared : env.constructor? t.head index = some c)
      (inhabitants : FieldsInhabit env fuel t.params c.fields fields) :
      Inhabits env fuel (.inductiveType t)
        ((Term.ctor t.head index t.levels).mkApp (t.params ++ fields))

/-- The terms inhabit the field types one by one, each type taken in the context of the parameters
and the terms before it. -/
inductive FieldsInhabit (env : Environment) (fuel : Nat) :
    List Term → List Term → List Term → Prop
  | nil {context : List Term} : FieldsInhabit env fuel context [] []
  | cons {context types fields : List Term} {type field : Term} {r : Readable}
      (classified : Readable.ofType env fuel (type.instantiate context) = .ok r)
      (inhabits : Inhabits env fuel r field)
      (rest : FieldsInhabit env fuel (context ++ [field]) types fields) :
      FieldsInhabit env fuel context (type :: types) (field :: fields)

end

/-- There is one inhabitant for each field. -/
theorem FieldsInhabit.length_eq {env : Environment} {fuel : Nat} {context types fields : List Term}
    (inhabitants : FieldsInhabit env fuel context types fields) : fields.length = types.length := by
  induction types generalizing context fields with
  | nil => cases inhabitants; rfl
  | cons type types ih =>
    cases inhabitants with
    | cons _ _ rest => simpa using ih rest

namespace Value

theorem floatOfInt?_toInt (x : Float64) : floatOfInt? x.bits.toInt64.toInt = some x := by
  unfold floatOfInt?
  rw [Int64.ofInt_toInt, if_pos rfl]
  rfl

theorem toInt_of_floatOfInt? {n : Int} {x : Float64} (read : floatOfInt? n = some x) :
    x.bits.toInt64.toInt = n := by
  unfold floatOfInt? at read
  split at read
  next fits =>
    obtain rfl := Option.some.inj read
    exact fits
  · cases read

/-- Exactly the boxed floats are read as floats. -/
theorem float?_eq_some_iff {v : Value} {x : Float64} : v.float? = some x ↔ v = ofFloat x := by
  constructor
  · intro read
    unfold float? at read
    split at read
    next tag n =>
      split at read
      next isFloat => rw [isFloat, ofFloat, toInt_of_floatOfInt? read]
      · cases read
    · cases read
  · rintro rfl
    simp [ofFloat, float?, floatOfInt?_toInt]

end Value

variable {env : Environment} {d : InductiveDecl} {s : Signature} {n : Nat} {values : List Value}

/-- A constant is encoded as its number. -/
theorem InductiveDecl.encode?_constant (numbered : (Layout.of d).constants[n]? = some s) :
    d.encode? s.index values = some (.immediate n) := by
  simp only [encode?, Layout.position?_of_constant numbered]

/-- A constructor with fields is encoded as a block with its number. -/
theorem InductiveDecl.encode?_block (numbered : (Layout.of d).blocks[n]? = some s)
    (small : n < UInt8.size) : d.encode? s.index values = some (.block (.ofNat n) values) := by
  simp only [encode?, Layout.position?_of_block numbered, if_pos small]

theorem encodeFields?_append (params fields : List Term) :
    encodeFields? env params.length (params ++ fields) = encodeFields? env 0 fields := by
  induction params with
  | nil => rfl
  | cons p params ih => simpa [encodeFields?] using ih

/-- The native value of a constructor comes from its fields; the parameters are erased. -/
theorem Term.encode?_constructor {ind : Name} {params : List Term} (index : Nat) (levels : Levels)
    (fields : List Term) (found : env.inductive? ind = some d)
    (count : params.length = d.params.length) :
    ((ctor ind index levels).mkApp (params ++ fields)).encode? env =
      (encodeFields? env 0 fields).bind (d.encode? index) := by
  have erased : encodeFields? env params.length (params ++ fields) = encodeFields? env 0 fields :=
    encodeFields?_append params fields
  cases args : params ++ fields with
  | nil =>
    obtain ⟨rfl, rfl⟩ := List.append_eq_nil_iff.mp args
    have none : d.params = [] := List.length_eq_zero_iff.mp count.symm
    simp [encode?, found, none, encodeFields?]
  | cons arg rest =>
    rw [args, count] at erased
    simp only [mkApp, encode?, found, Option.bind_some, erased]

end Readback
