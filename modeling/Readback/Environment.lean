import Readback.Term.Equality

/-!
# The global environment

Terms refer by name to inductive types, to constants with or without a definition, and to primitive
types. Each of the three kinds has names of its own, and a later declaration replaces an earlier one
of the same kind and name.

## Main definitions

* `ConstructorDecl`, `InductiveDecl` — inductive types and their constructors
* `Definition` — a constant with its type and, unless it is only postulated, its body
* `PrimitiveKind` — how the values of a primitive type are represented
* `Declaration`, `Environment`, `Environment.declare` — the environment and its only change
-/

namespace Readback

/-- A binder with its type. -/
structure Binder where
  name : Name
  type : Term
  deriving DecidableEq, Repr

/-- A constructor. The type of a field may refer to the parameters of the inductive type and to the
fields before it: variable `0` is the previous field, or the last parameter for the first field. -/
structure ConstructorDecl where
  name : Name
  fields : List Term
  deriving DecidableEq, Repr

/-- How many fields a constructor has. -/
def ConstructorDecl.arity (c : ConstructorDecl) : Nat := c.fields.length

/-- An inductive type with its uniform parameters, outermost first. The order of the constructors
numbers them, for the terms and for the native values alike. -/
structure InductiveDecl where
  name : Name
  params : List Binder := []
  constructors : List ConstructorDecl
  deriving DecidableEq, Repr

/-- The constructor at a position of the declaration. -/
def InductiveDecl.constructor? (d : InductiveDecl) (index : Nat) : Option ConstructorDecl :=
  d.constructors[index]?

/-- A global constant. Without a body it never unfolds. -/
structure Definition where
  name : Name
  type : Term
  body : Option Term
  deriving DecidableEq, Repr

/-- How the values of a primitive type are represented. -/
inductive PrimitiveKind
  | int
  | float
  | array
  deriving DecidableEq, Repr

/-- The word for a kind of primitive type. -/
def PrimitiveKind.render : PrimitiveKind → String
  | int => "int"
  | float => "float"
  | array => "array"

/-- The constant of that name is a primitive type. -/
structure PrimitiveType where
  name : Name
  kind : PrimitiveKind
  deriving DecidableEq, Repr

/-- What can be added to an environment. -/
inductive Declaration
  | inductiveType (decl : InductiveDecl)
  | constant (definition : Definition)
  | primitive (type : PrimitiveType)
  deriving Repr

/-- The global environment, with the latest declarations first. -/
structure Environment where
  inductives : List InductiveDecl := []
  definitions : List Definition := []
  primitives : List PrimitiveType := []
  deriving Repr

namespace Environment

/-- The environment with one more declaration, which hides an earlier one of its kind and name. -/
def declare (env : Environment) : Declaration → Environment
  | .inductiveType d => { env with inductives := d :: env.inductives }
  | .constant d => { env with definitions := d :: env.definitions }
  | .primitive p => { env with primitives := p :: env.primitives }

/-- The inductive type of that name. -/
def inductive? (env : Environment) (name : Name) : Option InductiveDecl :=
  env.inductives.find? (·.name = name)

/-- The constant of that name. -/
def definition? (env : Environment) (name : Name) : Option Definition :=
  env.definitions.find? (·.name = name)

/-- The kind of the primitive type of that name. -/
def primitive? (env : Environment) (name : Name) : Option PrimitiveKind :=
  (env.primitives.find? (·.name = name)).map (·.kind)

/-- The constructor of an inductive type, by the name of the type and the position. -/
def constructor? (env : Environment) (ind : Name) (index : Nat) : Option ConstructorDecl :=
  (env.inductive? ind).bind (·.constructor? index)

variable {env : Environment} {name : Name}

/-- An inductive type is found under its own name. -/
theorem name_of_inductive? {d : InductiveDecl} (found : env.inductive? name = some d) :
    d.name = name := by
  simpa using List.find?_some found

end Environment

end Readback
