import Readback.Environment
import Readback.Value.Basic

/-!
# Constructor layout

Native code numbers the constructors of an inductive type in two sequences, both in the order of
the declaration: those without fields are immediates, those with fields are blocks, told apart by
their tags.

## Main definitions

* `Signature`, `Layout` — a constructor at its position, and the two sequences
* `Layout.of` — the layout of a declaration
* `Layout.constant?`, `Layout.block?` — from a native number to the constructor
* `Layout.position?` — from the position in the declaration to the native number
-/

namespace Readback

/-- A constructor: its position in the declaration, its name and the number of its fields. -/
structure Signature where
  index : Nat
  name : Name
  arity : Nat
  deriving DecidableEq, Repr

/-- The constructors of an inductive type as native code numbers them. -/
structure Layout where
  constants : List Signature
  blocks : List Signature
  deriving DecidableEq, Repr

namespace Layout

/-- The signatures of constructors, the first of which has the given position. -/
def signaturesFrom (index : Nat) : List ConstructorDecl → List Signature
  | [] => []
  | c :: cs => ⟨index, c.name, c.arity⟩ :: signaturesFrom (index + 1) cs

/-- The signatures of all constructors of a declaration. -/
def signatures (d : InductiveDecl) : List Signature := signaturesFrom 0 d.constructors

/-- The layout of a declaration. -/
def of (d : InductiveDecl) : Layout where
  constants := (signatures d).filter (·.arity = 0)
  blocks := (signatures d).filter (·.arity ≠ 0)

/-- As many constructors with fields as there are tags for blocks of values. -/
def maxBlocks : Nat := Value.noScanTag.toNat

/-- Whether there is a tag for every constructor with fields. -/
def isSupported (l : Layout) : Bool := l.blocks.length ≤ maxBlocks

/-- The constructor of an immediate. -/
def constant? (l : Layout) (ordinal : Nat) : Option Signature := l.constants[ordinal]?

/-- The constructor of the blocks with a tag. -/
def block? (l : Layout) (tag : UInt8) : Option Signature := l.blocks[tag.toNat]?

/-- The native shape and number of the constructor at a position of the declaration. -/
def position? (l : Layout) (index : Nat) : Option (Shape × Nat) :=
  match l.constants.findIdx? (·.index = index) with
  | some n => some (.immediate, n)
  | none => (l.blocks.findIdx? (·.index = index)).map fun n => (.block, n)

end Layout

end Readback
