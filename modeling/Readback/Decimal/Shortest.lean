/-!
# Shortest decimals

Of all decimals that round to a given binary fraction `m · 2 ^ q`, the one with the fewest digits,
and of those the nearest to the fraction; of two equally near the larger. Everything is computed
with natural numbers: the fraction and the ends of the interval of reals that round to it are
numerators over one denominator.

## Main definitions

* `Decimal` — digits and the decimal exponent of the first digit
* `Rounding` — a positive fraction with the interval of reals that round to it
* `Rounding.shortest` — the shortest decimal in the interval
-/

namespace Readback

/-- The number `d₀.d₁d₂… · 10 ^ exponent`, where `digits` is `[d₀, d₁, …]` as characters. -/
structure Decimal where
  digits : List Char
  exponent : Int
  deriving DecidableEq, Repr

/-- The positive number `value / den` with the ends of the interval of the reals that round to it.
The ends belong to the interval iff `closed`. -/
structure Rounding where
  low : Nat
  value : Nat
  high : Nat
  den : Nat
  closed : Bool
  deriving Repr

namespace Rounding

/-- The interval of the reals that round to `m · 2 ^ q` among the neighbours `m ± 1` at the same
exponent; `lowerIsCloser` when the neighbour below is only half as far away. -/
def ofBinary (m : Nat) (q : Int) (lowerIsCloser : Bool) : Rounding where
  low := (4 * m - if lowerIsCloser then 1 else 2) * Nat.pow 2 (q - 2).toNat
  value := 4 * m * Nat.pow 2 (q - 2).toNat
  high := (4 * m + 2) * Nat.pow 2 (q - 2).toNat
  den := Nat.pow 2 (2 - q).toNat
  closed := m % 2 == 0

/-- How many decimal digits a number has. -/
def digitCount (n : Nat) : Nat := (Nat.toDigits 10 n).length

/-- The exponent `e` with `10 ^ e ≤ value / den < 10 ^ (e + 1)`. -/
def magnitude (r : Rounding) : Int :=
  let e : Int := digitCount r.value - digitCount r.den
  -- the numbers of digits leave two exponents, and one comparison decides
  if r.den * Nat.pow 10 e.toNat ≤ r.value * Nat.pow 10 (-e).toNat then e else e - 1

/-- Whether `n / den` lies in the interval, for the ends and the denominator of a grid. -/
def contains (closed : Bool) (low n high : Nat) : Bool :=
  if closed then low ≤ n && n ≤ high else low < n && n < high

/-- The multiple of `10 ^ k` in the interval that is nearest to the value, divided by `10 ^ k`, if
one of the two multiples beside the value is in the interval. -/
def onGrid? (r : Rounding) (k : Int) : Option Nat :=
  let scale := Nat.pow 10 (-k).toNat
  let unit := r.den * Nat.pow 10 k.toNat
  let below := r.value * scale / unit
  let fits (d : Nat) : Bool := contains r.closed (r.low * scale) (d * unit) (r.high * scale)
  match fits below, fits (below + 1) with
  | true, true =>
    if 2 * (r.value * scale) < (2 * below + 1) * unit then some below else some (below + 1)
  | true, false => some below
  | false, true => some (below + 1)
  | false, false => none

/-- The decimal of `d · 10 ^ k`, without trailing zeros. -/
def decimalOf (d : Nat) (k : Int) : Decimal :=
  let digits := Nat.toDigits 10 d
  { digits := (digits.reverse.dropWhile (· == '0')).reverse
    exponent := k + (digits.length - 1 : Nat) }

/-- Tries the grids with `digits` digits, then with one more, at most `more` times after the
first. -/
def search (r : Rounding) (digits : Nat) : Nat → Decimal
  | 0 =>
    let k := r.magnitude + 1 - digits
    let below := r.value * Nat.pow 10 (-k).toNat / (r.den * Nat.pow 10 k.toNat)
    decimalOf ((r.onGrid? k).getD below) k
  | more + 1 =>
    let k := r.magnitude + 1 - digits
    match r.onGrid? k with
    | some d => decimalOf d k
    | none => search r (digits + 1) more

/-- The shortest decimal in the interval. Seventeen digits always suffice for 53 binary ones. -/
def shortest (r : Rounding) : Decimal := r.search 1 16

end Rounding

end Readback
