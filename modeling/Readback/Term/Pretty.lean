import Readback.Environment

/-!
# Printing terms

Terms are printed in the notation of the surface language, constructors by the names that the
environment knows, variables by their index. A compound term inside an application is set in
parentheses.

## Main definitions

* `Term.render` — the text of a term
* `Environment.pretty` — the text of a term on its own
-/

namespace Readback

/-- Sets a text in parentheses where it stands inside an application. -/
def parenthesize (nested : Bool) (text : String) : String :=
  if nested then "(" ++ text ++ ")" else text

namespace Term

/-- The name of a constructor, or its position where the environment does not know it. -/
def constructorText (env : Environment) (ind : Name) (index : Nat) : String :=
  match env.constructor? ind index with
  | some c => c.name.text
  | none => ind.text ++ "#" ++ toString index

mutual

/-- The text of a term, `nested` when it stands as head or argument of an application. -/
def render (env : Environment) (nested : Bool) : Term → String
  | var i => "#" ++ toString i
  | sort u => u.render
  | const name levels => name.text ++ levels.render
  | ind name levels => name.text ++ levels.render
  | ctor type index levels => constructorText env type index ++ levels.render
  | int n => toString n
  | float x => x.render
  | app head args => parenthesize nested (render env true head ++ renderArgs env args)
  | pi x domain codomain =>
    parenthesize nested
      ("forall " ++ x.text ++ " : " ++ render env false domain ++ ", " ++ render env false codomain)
  | lam x domain body =>
    parenthesize nested
      ("fun " ++ x.text ++ " : " ++ render env false domain ++ " => " ++ render env false body)
  | letIn x value type body =>
    parenthesize nested
      ("let " ++ x.text ++ " : " ++ render env false type ++ " := " ++ render env false value ++
        " in " ++ render env false body)

/-- The arguments of an application, each after a blank. -/
def renderArgs (env : Environment) : List Term → String
  | [] => ""
  | arg :: args => " " ++ render env true arg ++ renderArgs env args

end

end Term

/-- The text of a term, with the names of the constructors that the environment knows. -/
def Environment.pretty (env : Environment) (t : Term) : String := t.render env false

end Readback
