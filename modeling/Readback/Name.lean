import Readback.Text.Quoted

/-!
# Names

Global names and binder names are texts; dots separate the parts of a qualified name. A
polymorphic name comes with the list of universe levels that it is used at.

## Main definitions

* `Name`, `Name.basename`, `Name.describe` — a name, its last part, and its quoted form
* `Name.sort` — names in the order of their characters
* `Levels`, `Levels.render` — the universe levels of one use of a name
-/

namespace Readback

/-- A name. Names are equal when their texts are. -/
structure Name where
  text : String
  deriving DecidableEq, Repr, Inhabited

namespace Name

/-- The part after the last dot, or the whole name if it has none. -/
def basename (n : Name) : String :=
  String.ofList (n.text.toList.reverse.takeWhile (· ≠ '.')).reverse

/-- The name in quotes, as debugging output shows it. -/
def describe (n : Name) : String := "Name(" ++ Text.quoted n.text ++ ")"

/-- Names in increasing order of their characters. -/
def sort (names : List Name) : List Name :=
  names.mergeSort fun a b => decide (¬ b.text < a.text)

end Name

/-- The universe levels of one use of a name. -/
structure Levels where
  levels : List String
  deriving DecidableEq, Repr, Inhabited

namespace Levels

/-- No levels: the name is not polymorphic. -/
def empty : Levels := ⟨[]⟩

/-- Written after the name: nothing for no levels, otherwise the levels in braces. -/
def render (l : Levels) : String :=
  match l.levels with
  | [] => ""
  | levels => "@\x7b" ++ " ".intercalate levels ++ "\x7d"

end Levels

end Readback
