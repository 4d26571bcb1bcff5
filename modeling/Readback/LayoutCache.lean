import Readback.Decode

/-!
# Layouts computed once

Decoding a large value asks for the layout of the same inductive types over and over. A session of
classification and decoding in one environment keeps the layouts that it has computed. Layouts that
are not supported are not kept: asking again fails again.

## Main definitions

* `LayoutCache`, `LayoutCache.Run` — the layouts so far, and computations that extend them
* `LayoutCache.classify`, `LayoutCache.classifyResult` — the readable type of a term
* `LayoutCache.decode` — the term that a value represents
-/

namespace Readback

/-- The layouts of inductive types, by name. -/
structure LayoutCache where
  entries : List (Name × Layout) := []
  deriving Repr

namespace LayoutCache

/-- A computation that may fail and that extends the cache either way. -/
abbrev Run (ε α : Type) := ExceptT ε (StateM LayoutCache) α

/-- The layout kept under a name. -/
def find? (c : LayoutCache) (name : Name) : Option Layout :=
  (c.entries.find? (·.1 = name)).map (·.2)

/-- A step that does not use the cache. -/
def lift {ε α : Type} (result : Except ε α) : Run ε α := ExceptT.mk (pure result)

/-- Renames the error of a computation. -/
def mapError {ε δ α : Type} (f : ε → δ) (run : Run ε α) : Run δ α :=
  ExceptT.mk ((·.mapError f) <$> run.run)

/-- The layout of a declaration, kept from now on if it is supported. -/
def layout (d : InductiveDecl) : Run TypeError Layout := do
  match (← get).find? d.name with
  | some l => return l
  | none =>
    -- a layout that is not supported fails here, before it could be kept
    let l ← lift (Layout.ofSupported d)
    modify fun c => { c with entries := (d.name, l) :: c.entries }
    return l

/-- The readable type that a term stands for. -/
def classify (env : Environment) (fuel : Nat) (type : Term) : Run TypeError Readable := do
  match ← lift (TypeHead.ofType env fuel type) with
  | .primitive use => return .primitive use
  | .inductiveType d levels params =>
    return .inductiveType ⟨d.name, levels, params, ← layout d⟩

/-- The readable type that a term stands for as the type of a result. -/
def classifyResult (env : Environment) (fuel : Nat) (type : Term) : Run TypeError Readable := do
  lift ((← classify env fuel type).asResult env)

mutual

/-- The term that a value represents at a readable type. -/
def decode (env : Environment) (fuel : Nat) (r : Readable) : Value → Run DecodeError Term
  | .immediate n => lift (r.decode env fuel (.immediate n))
  | .block tag fields =>
    match r with
    | .primitive t => lift (t.decode env (.block tag fields))
    | .inductiveType t => do
      let s ← lift (t.blockSignature env tag fields.length)
      let types ← lift (t.fieldTypes env s)
      let args ← decodeFields env fuel t.params types fields
      return (t.constructor s).mkApp args

/-- Reads fields from left to right at their types, in the context of the terms before them. -/
def decodeFields (env : Environment) (fuel : Nat) (context : List Term) (types : List Term) :
    List Value → Run DecodeError (List Term)
  | [] => return context
  | v :: vs =>
    match types with
    | [] => return context
    | type :: types => do
      let r ← mapError .type (classify env fuel (type.instantiate context))
      let field ← decode env fuel r v
      decodeFields env fuel (context ++ [field]) types vs

end

/-- The term that a value represents at a type. -/
def decodeAt (env : Environment) (fuel : Nat) (type : Term) (v : Value) :
    Run DecodeError Term := do
  decode env fuel (← mapError .type (classifyResult env fuel type)) v

end LayoutCache

end Readback
