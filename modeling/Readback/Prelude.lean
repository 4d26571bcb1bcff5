import Readback.Environment
import Readback.Term.Substitution

/-!
# The prelude

The inductive and primitive types that every session starts from, and terms of these types.

## Main definitions

* `Prelude.environment` — booleans, natural numbers, options, lists, pairs, dependent pairs, and
  the primitive integers, floats and arrays
* `Prelude.nat`, `Prelude.list`, `Prelude.option` — terms of the inductive types
-/

namespace Readback.Prelude

/-- The names of the inductive types. -/
def boolName : Name := ⟨"bool"⟩
/-- The natural numbers. -/
def natName : Name := ⟨"nat"⟩
/-- Optional values. -/
def optionName : Name := ⟨"option"⟩
/-- Lists. -/
def listName : Name := ⟨"list"⟩
/-- Pairs. -/
def prodName : Name := ⟨"prod"⟩
/-- Dependent pairs. -/
def sigTName : Name := ⟨"sigT"⟩
/-- The primitive integers. -/
def intName : Name := ⟨"PrimInt63.int"⟩
/-- The primitive floats. -/
def floatName : Name := ⟨"PrimFloat.float"⟩
/-- The primitive arrays. -/
def arrayName : Name := ⟨"PArray.array"⟩

/-- An inductive type without universe levels. -/
def indTerm (name : Name) : Term := .ind name .empty

/-- A constructor without universe levels. -/
def ctorTerm (ind : Name) (index : Nat) : Term := .ctor ind index .empty

/-- An inductive type applied to arguments. -/
def applied (ind : Name) (args : List Term) : Term := (indTerm ind).mkApp args

/-- The lowest universe, that of the parameters. -/
def smallTypes : Term := .sort (.type 0)

/-- The environment that every session starts from. -/
def environment : Environment where
  inductives := [
    { name := boolName, constructors := [⟨⟨"true"⟩, []⟩, ⟨⟨"false"⟩, []⟩] },
    { name := natName, constructors := [⟨⟨"O"⟩, []⟩, ⟨⟨"S"⟩, [indTerm natName]⟩] },
    { name := optionName, params := [⟨⟨"A"⟩, smallTypes⟩]
      constructors := [⟨⟨"None"⟩, []⟩, ⟨⟨"Some"⟩, [.var 0]⟩] },
    { name := listName, params := [⟨⟨"A"⟩, smallTypes⟩]
      constructors := [⟨⟨"nil"⟩, []⟩, ⟨⟨"cons"⟩, [.var 0, applied listName [.var 1]]⟩] },
    { name := prodName, params := [⟨⟨"A"⟩, smallTypes⟩, ⟨⟨"B"⟩, smallTypes⟩]
      constructors := [⟨⟨"pair"⟩, [.var 1, .var 1]⟩] },
    { name := sigTName, params := [⟨⟨"A"⟩, smallTypes⟩, ⟨⟨"P"⟩, Term.arrow (.var 0) smallTypes⟩]
      constructors := [⟨⟨"existT"⟩, [.var 1, (Term.var 1).mkApp [.var 0]]⟩] }]
  primitives := [⟨intName, .int⟩, ⟨floatName, .float⟩, ⟨arrayName, .array⟩]

/-- The natural number `n`. -/
def nat : Nat → Term
  | 0 => ctorTerm natName 0
  | n + 1 => (ctorTerm natName 1).mkApp [nat n]

/-- The list of the terms in `items`, all of type `elem`. -/
def list (elem : Term) (items : List Term) : Term :=
  items.foldr (fun item rest => (ctorTerm listName 1).mkApp [elem, item, rest])
    ((ctorTerm listName 0).mkApp [elem])

/-- The optional term of type `elem`. -/
def option (elem : Term) : Option Term → Term
  | none => (ctorTerm optionName 0).mkApp [elem]
  | some value => (ctorTerm optionName 1).mkApp [elem, value]

end Readback.Prelude
