import Readback.Float64

/-!
# Native values

What compiled code returns: an immediate integer, or a block with a tag and fields. A float is a
block with a tag of its own, whose only field stands for the bit pattern.

## Main definitions

* `Shape` — the two shapes of a native value
* `Value`, `Value.shape`, `Value.induction` — native values, and induction over them
* `Value.ofFloat`, `Value.float?` — a boxed float, and the float in a block
-/

namespace Readback

/-- The two shapes of a native value. -/
inductive Shape
  | immediate
  | block
  deriving DecidableEq, Repr

/-- The word for a shape. -/
def Shape.render : Shape → String
  | immediate => "immediate"
  | block => "block"

/-- A native value. Machine immediates have 63 bits; the boxed bits of a float have 64. -/
inductive Value
  | immediate (n : Int)
  | block (tag : UInt8) (fields : List Value)
  deriving Repr, Inhabited

namespace Value

/-- Induction over values, with the hypothesis for every field of a block. -/
@[elab_as_elim]
theorem induction {motive : Value → Prop} (immediate : ∀ n, motive (.immediate n))
    (block : ∀ tag fields, (∀ v ∈ fields, motive v) → motive (.block tag fields)) (v : Value) :
    motive v :=
  v.rec (motive_2 := fun fields => ∀ v ∈ fields, motive v) immediate block
    (fun _ h => absurd h List.not_mem_nil)
    (fun _ _ head tail v h => (List.mem_cons.mp h).elim (fun e => e ▸ head) (tail v))

/-- The least tag of the blocks whose contents are not values. -/
def noScanTag : UInt8 := 251

/-- The tag of a boxed float. -/
def floatTag : UInt8 := 253

/-- The shape of a value. -/
def shape : Value → Shape
  | immediate _ => .immediate
  | block _ _ => .block

/-- The integer that a diagnostic names a value by: an immediate itself, the tag of a block. -/
def raw : Value → Int
  | immediate n => n
  | block tag _ => tag.toNat

/-- The boxed float. Its bits, read as a signed number, are the only field. -/
def ofFloat (x : Float64) : Value := block floatTag [immediate x.bits.toInt64.toInt]

/-- The float with the bits of a signed 64-bit number, or `none` for a larger number. -/
def floatOfInt? (n : Int) : Option Float64 :=
  if (Int64.ofInt n).toInt = n then some ⟨(Int64.ofInt n).toUInt64⟩ else none

/-- The float in a block that is tagged as a float and has one immediate field. -/
def float? : Value → Option Float64
  | block tag [immediate n] => if tag = floatTag then floatOfInt? n else none
  | _ => none

end Value

end Readback
