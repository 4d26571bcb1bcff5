import Readback.Readable
import Readback.Term.Substitution

/-!
# Reading native values back

A native value is turned into the term that it represents at a readable type. The constructor comes
from the layout of the type, the parameters from the type itself, and the type of each field from
the declaration, with the parameters and the fields before it filled in.

## Main definitions

* `IllFormedValue` — why a value does not belong to a type
* `Readable.decode` — the term that a value represents at a readable type
* `decodeAt` — the same at a type given as a term
-/

namespace Readback

/-- Why a value does not belong to a type. -/
inductive IllFormedValue
  | blockTag (type : String) (tag : UInt8) (available : Nat)
  | immediateOrdinal (type : String) (ordinal : Int) (available : Nat)
  | fieldCount (type : String) (constructor : Name) (tag : UInt8) (expected found : Nat)
  | scalarShape (type : String) (shape : Shape) (raw : Int)
  | nullBlock
  deriving DecidableEq, Repr

/-- The text of a complaint about a value. -/
def IllFormedValue.message : IllFormedValue → String
  | blockTag type tag available =>
    "block with tag " ++ toString tag.toNat ++ " at type `" ++ type ++ "`: the type has only " ++
      toString available ++ " constructors with fields"
  | immediateOrdinal type ordinal available =>
    "immediate with ordinal " ++ toString ordinal ++ " at type `" ++ type ++
      "`: the type has only " ++ toString available ++ " constructors without fields"
  | fieldCount type constructor tag expected found =>
    "block with tag " ++ toString tag.toNat ++ " at type `" ++ type ++ "` has " ++
      toString found ++ " fields, but constructor `" ++ constructor.text ++ "` takes " ++
      toString expected
  | scalarShape type shape raw =>
    shape.render ++ " value at primitive type `" ++ type ++ "` (raw " ++ toString raw ++
      ") is not laid out as that type"
  | nullBlock => "null pointer where a block was expected"

/-- Why a value could not be read back. -/
inductive DecodeError
  | type (cause : TypeError)
  | value (cause : IllFormedValue)
  deriving DecidableEq, Repr

/-- The text of a decoding error. -/
def DecodeError.message : DecodeError → String
  | type cause => cause.message
  | value cause => cause.message

namespace PrimitiveUse

/-- The complaint that a value is no literal of the primitive type. -/
def misshapen (env : Environment) (t : PrimitiveUse) (v : Value) : DecodeError :=
  .value (.scalarShape ((Readable.primitive t).render env) v.shape v.raw)

/-- The literal that a value represents at a primitive type. -/
def decode (env : Environment) (t : PrimitiveUse) (v : Value) : Except DecodeError Term :=
  match t.kind with
  | .int =>
    match v with
    | .immediate n => .ok (.int n)
    | .block _ _ => .error (t.misshapen env v)
  | .float =>
    match v.float? with
    | some x => .ok (.float x)
    | none => .error (t.misshapen env v)
  | .array => .error (.type (.unsupportedPrimitive ((Readable.primitive t).render env) .array))

end PrimitiveUse

namespace InductiveType

/-- The type as it is printed. -/
def render (env : Environment) (t : InductiveType) : String :=
  (Readable.inductiveType t).render env

/-- The constructor with a signature, at the universe levels of the type. -/
def constructor (t : InductiveType) (s : Signature) : Term := .ctor t.head s.index t.levels

/-- The constant that an immediate represents. -/
def decodeImmediate (env : Environment) (t : InductiveType) (ordinal : Int) :
    Except DecodeError Term :=
  -- a negative ordinal numbers no constant
  let found := if 0 ≤ ordinal then t.layout.constant? ordinal.toNat else none
  match found with
  | some s => .ok ((t.constructor s).mkApp t.params)
  | none =>
    .error (.value (.immediateOrdinal (t.render env) ordinal t.layout.constants.length))

/-- The constructor of a block with a tag and as many fields as given. -/
def blockSignature (env : Environment) (t : InductiveType) (tag : UInt8) (count : Nat) :
    Except DecodeError Signature :=
  match t.layout.block? tag with
  | none => .error (.value (.blockTag (t.render env) tag t.layout.blocks.length))
  | some s =>
    if count = s.arity then .ok s
    else .error (.value (.fieldCount (t.render env) s.name tag s.arity count))

/-- The types of the fields of a constructor, each in the context of the parameters and the fields
before it. -/
def fieldTypes (env : Environment) (t : InductiveType) (s : Signature) :
    Except DecodeError (List Term) :=
  match env.constructor? t.head s.index with
  | some c => .ok c.fields
  | none => .error (.type (.unknownInductive t.head))

end InductiveType

mutual

/-- The term that a value represents at a readable type. -/
def Readable.decode (env : Environment) (fuel : Nat) (r : Readable) :
    Value → Except DecodeError Term
  | .immediate n =>
    match r with
    | .primitive t => t.decode env (.immediate n)
    | .inductiveType t => t.decodeImmediate env n
  | .block tag fields =>
    match r with
    | .primitive t => t.decode env (.block tag fields)
    | .inductiveType t => do
      let s ← t.blockSignature env tag fields.length
      let types ← t.fieldTypes env s
      let args ← decodeFields env fuel t.params types fields
      return (t.constructor s).mkApp args

/-- Reads fields from left to right at their types, in the context of the terms before them, and
answers the context with all of them. -/
def decodeFields (env : Environment) (fuel : Nat) (context : List Term) (types : List Term) :
    List Value → Except DecodeError (List Term)
  | [] => .ok context
  | v :: vs =>
    match types with
    | [] => .ok context
    | type :: types => do
      let r ← (Readable.ofType env fuel (type.instantiate context)).mapError .type
      let field ← r.decode env fuel v
      decodeFields env fuel (context ++ [field]) types vs

end

/-- The term that a value represents at a type. -/
def decodeAt (env : Environment) (fuel : Nat) (type : Term) (v : Value) :
    Except DecodeError Term := do
  let r ← (Readable.ofResultType env fuel type).mapError .type
  r.decode env fuel v

end Readback
