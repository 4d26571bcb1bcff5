import Readback.Decimal.Shortest

/-!
# Float literals

A float literal is a 64-bit pattern of the IEEE 754 binary format, so that literals are equal
exactly when their patterns are: `0.0` differs from `-0.0`, and each NaN equals itself.

## Main definitions

* `Float64`, `Float64.render` — the literal and its shortest text that reads back
-/

namespace Readback

/-- A float literal, by its bits: the sign, eleven bits of exponent, fifty-two of fraction. -/
structure Float64 where
  bits : UInt64
  deriving DecidableEq, Repr, Inhabited

namespace Float64

/-- The sign bit. -/
def isNegative (x : Float64) : Bool := x.bits >>> 63 == 1

/-- The eleven bits of exponent. -/
def biasedExponent (x : Float64) : Nat := (x.bits >>> 52 &&& 0x7ff).toNat

/-- The fifty-two bits of fraction. -/
def fraction (x : Float64) : Nat := (x.bits &&& 0xfffffffffffff).toNat

/-- The magnitude of a finite nonzero literal with the interval of the reals that round to it. The
smallest exponent serves the numbers without an implicit leading bit too. -/
def rounding (x : Float64) : Rounding :=
  if x.biasedExponent = 0 then .ofBinary x.fraction (-1074) false
  else
    .ofBinary (x.fraction + Nat.pow 2 52) (x.biasedExponent - 1075)
      -- the neighbour below a power of two is nearer, but not below the smallest exponent
      (x.fraction == 0 && x.biasedExponent != 1)

/-- The decimal exponents whose numbers are written without an exponent. -/
def isPositional (exponent : Int) : Bool := -4 ≤ exponent && exponent < 16

/-- A decimal without an exponent. At least one digit stands on each side of the point. -/
def renderPositional (d : Decimal) : List Char :=
  if d.exponent < 0 then
    ['0', '.'] ++ List.replicate (-d.exponent - 1).toNat '0' ++ d.digits
  else
    let whole := d.exponent.toNat + 1
    let fractional := d.digits.drop whole
    d.digits.take whole ++ List.replicate (whole - d.digits.length) '0' ++ ['.'] ++
      (if fractional.isEmpty then ['0'] else fractional)

/-- A decimal with an exponent. The point is left out after a single digit. -/
def renderScientific (d : Decimal) : List Char :=
  d.digits.take 1 ++ (if d.digits.length ≤ 1 then [] else '.' :: d.digits.drop 1) ++
    'e' :: (toString d.exponent).toList

/-- The magnitude of a finite literal. -/
def renderMagnitude (x : Float64) : List Char :=
  if x.biasedExponent = 0 ∧ x.fraction = 0 then ['0', '.', '0']
  else
    let d := x.rounding.shortest
    if isPositional d.exponent then renderPositional d else renderScientific d

/-- The shortest text that reads back as the literal. The sign of a NaN is not shown. -/
def render (x : Float64) : String :=
  if x.biasedExponent = 0x7ff ∧ x.fraction ≠ 0 then "NaN"
  else
    String.ofList ((if x.isNegative then ['-'] else []) ++
      (if x.biasedExponent = 0x7ff then ['i', 'n', 'f'] else x.renderMagnitude))

end Float64

end Readback
