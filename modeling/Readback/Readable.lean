import Readback.Layout
import Readback.Term.HeadReduction
import Readback.Term.Pretty

/-!
# Readable types

A native value can be read back at a type whose head, at once or after reduction, is an inductive
type with all its parameters, or a primitive type. Arguments of an inductive type beyond its
parameters are dropped, as they do not show in the native value.

## Main definitions

* `Readable` — the types at which values are read back
* `TypeError` — why a type is none of them
* `Readable.ofType`, `Readable.ofResultType` — the readable type that a term stands for, as the type
  of a field and as the type of a result
* `Readable.toTerm` — the term of a readable type
-/

namespace Readback

/-- An inductive type applied to its parameters. -/
structure InductiveType where
  head : Name
  levels : Levels
  params : List Term
  layout : Layout
  deriving DecidableEq, Repr

/-- A primitive type applied to arguments. -/
structure PrimitiveUse where
  head : Name
  kind : PrimitiveKind
  levels : Levels
  params : List Term
  deriving DecidableEq, Repr

/-- A type at which native values are read back. -/
inductive Readable
  | inductiveType (type : InductiveType)
  | primitive (type : PrimitiveUse)
  deriving DecidableEq, Repr

/-- Why values of a type cannot be read back. Types are given as they are printed in the environment
of the request. -/
inductive TypeError
  | notReadable (type : String)
  | unknownInductive (name : Name)
  | missingParameters (type : String) (name : Name) (expected found : Nat)
  | unsupportedLayout (name : Name) (count max : Nat)
  | unsupportedPrimitive (type : String) (kind : PrimitiveKind)
  | reduction (type : String) (cause : ReductionError)
  deriving DecidableEq, Repr

/-- The text of a type error. -/
def TypeError.message : TypeError → String
  | notReadable type =>
    "cannot evaluate at type `" ++ type ++
      "`: it is neither an inductive type nor a primitive type"
  | unknownInductive name => "inductive `" ++ name.text ++ "` is not declared in the environment"
  | missingParameters type name expected found =>
    "`" ++ type ++ "` applies inductive `" ++ name.text ++ "` to " ++ toString found ++
      " arguments, but it has " ++ toString expected ++ " parameters"
  | unsupportedLayout name count max =>
    "inductive `" ++ name.text ++ "` has " ++ toString count ++
      " constructors with fields; the runtime distinguishes at most " ++ toString max
  | unsupportedPrimitive type kind =>
    "values of primitive " ++ kind.render ++ " type `" ++ type ++ "` cannot be read back"
  | reduction type cause => "could not reduce `" ++ type ++ "`: " ++ cause.message

/-- What a type turns out to be before its constructors are laid out. -/
inductive TypeHead
  | inductiveType (decl : InductiveDecl) (levels : Levels) (params : List Term)
  | primitive (type : PrimitiveUse)

namespace TypeHead

/-- Reads an inductive type off the head of a term; `none` if the head is something else. -/
def ofInductive? (env : Environment) (t : Term) : Except TypeError (Option TypeHead) :=
  match t.spine with
  | (.ind name levels, args) =>
    match env.inductive? name with
    | none => .error (.unknownInductive name)
    | some d =>
      if args.length < d.params.length then
        .error (.missingParameters (env.pretty t) name d.params.length args.length)
      -- the arguments behind the parameters are indices, which leave no trace in the value
      else .ok (some (.inductiveType d levels (args.take d.params.length)))
  | _ => .ok none

/-- Reads a primitive type off the head of a term. -/
def ofPrimitive? (env : Environment) (t : Term) : Option TypeHead :=
  match t.spine with
  | (.const name levels, args) =>
    (env.primitive? name).map fun kind => .primitive ⟨name, kind, levels, args⟩
  | _ => none

/-- What a type turns out to be. A term whose head is an inductive type is not reduced. -/
def ofType (env : Environment) (fuel : Nat) (type : Term) : Except TypeError TypeHead := do
  if let some found ← ofInductive? env type then
    return found
  let reduced ← (type.whnf env fuel).mapError (.reduction (env.pretty type))
  if let some found ← ofInductive? env reduced then
    return found
  match ofPrimitive? env reduced with
  | some found => return found
  -- the error tells of the type as it was given, not of what it reduces to
  | none => throw (.notReadable (env.pretty type))

end TypeHead

namespace Layout

/-- The layout of a declaration, unless tags are too few for it. -/
def ofSupported (d : InductiveDecl) : Except TypeError Layout :=
  let l := of d
  if l.isSupported then .ok l else .error (.unsupportedLayout d.name l.blocks.length maxBlocks)

end Layout

namespace Readable

/-- The term of a readable type. -/
def toTerm : Readable → Term
  | inductiveType t => (Term.ind t.head t.levels).mkApp t.params
  | primitive t => (Term.const t.head t.levels).mkApp t.params

/-- A readable type as it is printed. -/
def render (env : Environment) (r : Readable) : String := env.pretty r.toTerm

/-- The readable type that a term stands for. -/
def ofType (env : Environment) (fuel : Nat) (type : Term) : Except TypeError Readable := do
  match ← TypeHead.ofType env fuel type with
  | .primitive use => return primitive use
  | .inductiveType d levels params =>
    return inductiveType ⟨d.name, levels, params, ← Layout.ofSupported d⟩

/-- Refuses the types whose values are not read back as results: the arrays. -/
def asResult (env : Environment) (r : Readable) : Except TypeError Readable :=
  match r with
  | primitive ⟨_, .array, _, _⟩ => .error (.unsupportedPrimitive (r.render env) .array)
  | _ => .ok r

/-- The readable type that a term stands for as the type of a result. -/
def ofResultType (env : Environment) (fuel : Nat) (type : Term) : Except TypeError Readable := do
  (← ofType env fuel type).asResult env

end Readable

end Readback
