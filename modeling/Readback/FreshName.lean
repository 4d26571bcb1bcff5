/-!
# Fresh native names

A name that is taken is made fresh by counting up the digits at its end: `x` becomes `x0`, `x9`
becomes `x10`, `x09` becomes `x10`, `x99` becomes `x100`. Counting never comes back to a name, so a
search among finitely many used names ends.

## Main definitions

* `increment` — the next name
* `FreshName.search` — the first name from a base on that is not used
* `cSymbol` — the C identifier for a global identifier
-/

namespace Readback

/-- Adds one to a number given by its decimal digits, the last digit first. -/
def bumpDigits : List Char → List Char
  | [] => ['1']
  | d :: ds => if d = '9' then '0' :: bumpDigits ds else Char.ofNat (d.toNat + 1) :: ds

/-- The next name: the number at the end plus one, with as many digits unless all are nines. A name
without a number at the end gets a zero. -/
def increment (name : String) : String :=
  let reversed := name.toList.reverse
  match reversed.takeWhile Char.isDigit with
  -- the first name behind `x` is `x0`
  | [] => name.push '0'
  | digits => String.ofList ((bumpDigits digits ++ reversed.dropWhile Char.isDigit).reverse)

namespace FreshName

/-- A fresh name, with the number of names that were looked up to find it. -/
structure Found where
  name : String
  lookups : Nat
  deriving DecidableEq, Repr

theorem length_erase_lt {name : String} {used : List String} (h : name ∈ used) :
    (used.erase name).length < used.length := by
  have := List.length_pos_of_mem h
  rw [List.length_erase_of_mem h]
  omega

/-- The first of the names `base`, `increment base`, … that is not used. A used name that was met is
not met again, so the search goes on in the others. -/
def search (base : String) (used : List String) : Found :=
  if h : base ∈ used then
    have := length_erase_lt h
    let rest := search (increment base) (used.erase base)
    { rest with lookups := rest.lookups + 1 }
  else ⟨base, 1⟩
  termination_by used.length

end FreshName

/-- The first name from `base` on that is not used. -/
def freshName (base : String) (used : List String) : String := (FreshName.search base used).name

/-- Whether a character may stand in a C identifier. -/
def isIdentifierChar (c : Char) : Bool := c.isAlphanum || c = '_'

/-- The C identifier for a global identifier: other characters become underscores, and one more goes
in front where the identifier would be empty or start with a digit. -/
def cSymbol (symbolPrefix id : String) : String :=
  let chars := (symbolPrefix.toList ++ id.toList).map fun c => if isIdentifierChar c then c else '_'
  match chars with
  | [] => "_"
  | c :: _ => String.ofList (if c.isDigit then '_' :: chars else chars)

end Readback
