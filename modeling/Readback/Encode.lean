import Readback.Layout

/-!
# Native values of terms

The native value that compiled code builds for a term: literals as they are, a constructor without
fields as an immediate, a constructor with fields as a block. The parameters of the inductive type
are erased.

## Main definitions

* `Term.encode?` — the native value of a literal or of a constructor with all its parameters
-/

namespace Readback

/-- The native value of a constructor with its encoded fields, if native code numbers it. Without
fields the value is an immediate. -/
def InductiveDecl.encode? (d : InductiveDecl) (index : Nat) (fields : List Value) : Option Value :=
  match (Layout.of d).position? index with
  | some (.immediate, n) => some (.immediate n)
  -- a tag has one byte
  | some (.block, n) => if n < UInt8.size then some (.block (.ofNat n) fields) else none
  | none => none

mutual

/-- The native value of a literal, or of a constructor applied to its parameters and fields. -/
def Term.encode? (env : Environment) : Term → Option Value
  | .int n => some (.immediate n)
  | .float x => some (.ofFloat x)
  | .ctor ind index _ =>
    (env.inductive? ind).bind fun d => if d.params.isEmpty then d.encode? index [] else none
  | .app (.ctor ind index _) args =>
    (env.inductive? ind).bind fun d =>
      (encodeFields? env d.params.length args).bind (d.encode? index)
  | _ => none

/-- The native values of arguments after the first `erased` of them. -/
def encodeFields? (env : Environment) : Nat → List Term → Option (List Value)
  | 0, [] => some []
  | _ + 1, [] => none
  | erased + 1, _ :: args => encodeFields? env erased args
  | 0, arg :: args =>
    (arg.encode? env).bind fun v => (encodeFields? env 0 args).map (v :: ·)

end

end Readback
