import Readback.FreshName
import Readback.Text.Quoted

/-!
# The registry of loaded artifacts

Artifacts are registered under the identifier of the program that they were built from; the first
one stays. The registry also hands out native symbols: a name is used once it is the identifier or
the symbol of an artifact, or has been reserved.

## Main definitions

* `Artifact` — a loaded entry point with its identifier and symbol
* `Registry`, `Registry.lookup?`, `Registry.insert` — artifacts by identifier
* `Registry.reserve` — a symbol that nothing else has
* `Registry.markInvoked` — notes that an artifact has run
-/

namespace Readback

/-- A loaded entry point. -/
structure Artifact (Entry : Type) where
  id : String
  symbol : String
  entry : Entry
  invoked : Bool := false
  deriving DecidableEq, Repr

/-- An artifact as debugging output shows it. -/
def Artifact.describe {Entry : Type} (a : Artifact Entry) : String :=
  "Artifact \x7b id: " ++ Text.quoted a.id ++ ", symbol: " ++ Text.quoted a.symbol ++
    ", invoked: " ++ toString a.invoked ++ ", .. \x7d"

/-- The registered artifacts, oldest first, and the native symbols that are taken. -/
structure Registry (Entry : Type) where
  artifacts : List (Artifact Entry) := []
  symbols : List String := []
  deriving Repr

namespace Registry

variable {Entry : Type}

/-- The artifact that is registered under an identifier. -/
def lookup? (r : Registry Entry) (id : String) : Option (Artifact Entry) :=
  r.artifacts.find? (·.id = id)

/-- Whether an artifact is registered under the identifier. -/
def contains (r : Registry Entry) (id : String) : Bool := (r.lookup? id).isSome

/-- The names that no new symbol may have. -/
def usedNames (r : Registry Entry) : List String := r.artifacts.map (·.id) ++ r.symbols

/-- Whether the name is an identifier or a symbol already. -/
def isUsed (r : Registry Entry) (name : String) : Bool := name ∈ r.usedNames

/-- Registers an artifact, unless its identifier is taken. Answers the artifact that is registered
under the identifier afterwards. -/
def insert (r : Registry Entry) (a : Artifact Entry) : Artifact Entry × Registry Entry :=
  match r.lookup? a.id with
  | some registered => (registered, r)
  -- a symbol that was reserved is in the list already
  | none => (a, { artifacts := r.artifacts ++ [a], symbols := r.symbols.insert a.symbol })

/-- After an insertion the answered artifact is registered under the identifier. -/
theorem lookup?_insert (r : Registry Entry) (a : Artifact Entry) :
    (r.insert a).2.lookup? a.id = some (r.insert a).1 := by
  unfold insert
  split
  next found => exact found
  next missing =>
    unfold lookup? at missing ⊢
    simp [List.find?_append, missing]

/-- Reserves the first unused name from a base on. -/
def reserve (r : Registry Entry) (base : String) : String × Registry Entry :=
  let symbol := freshName base r.usedNames
  (symbol, { r with symbols := r.symbols.insert symbol })

/-- Notes that the artifact under an identifier has run. -/
def markInvoked (r : Registry Entry) (id : String) : Registry Entry :=
  { r with
    artifacts := r.artifacts.map fun a => if a.id = id then { a with invoked := true } else a }

/-- A registry as debugging output shows it. -/
def describe (r : Registry Entry) : String :=
  "ArtifactRegistry \x7b artifacts: " ++ toString r.artifacts.length ++ ", symbols: " ++
    toString r.symbols.length ++ " \x7d"

end Registry

end Readback
