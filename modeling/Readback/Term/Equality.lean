import Readback.Term.Basic

/-!
# Deciding equality of terms

Two terms are equal when they are built alike, down to names, levels, binder names and the bits of
float literals.

## Main statements

* `Term.beq_iff` — the structural comparison answers `true` exactly for equal terms
-/

namespace Readback.Term

mutual

/-- The structural comparison of two terms. -/
def beq : Term → Term → Bool
  | var i, var j => i == j
  | sort u, sort v => u == v
  | const n l, const m k => n == m && l == k
  | ind n l, ind m k => n == m && l == k
  | ctor n i l, ctor m j k => n == m && i == j && l == k
  | app h as, app g bs => beq h g && beqList as bs
  | pi x d c, pi y e f => x == y && beq d e && beq c f
  | lam x d b, lam y e c => x == y && beq d e && beq b c
  | letIn x v t b, letIn y w u c => x == y && beq v w && beq t u && beq b c
  | int n, int m => n == m
  | float x, float y => x == y
  | _, _ => false

/-- The comparison of two lists of terms, element by element. -/
def beqList : List Term → List Term → Bool
  | [], [] => true
  | a :: as, b :: bs => beq a b && beqList as bs
  | _, _ => false

end

theorem beqList_iff {as : List Term} (h : ∀ a ∈ as, ∀ b, beq a b = true ↔ a = b) (bs : List Term) :
    beqList as bs = true ↔ as = bs := by
  induction as generalizing bs with
  | nil => cases bs <;> simp [beqList]
  | cons a as ih =>
    cases bs with
    | nil => simp [beqList]
    | cons b bs =>
      have tail := ih (fun x hx => h x (List.mem_cons_of_mem a hx)) bs
      simp [beqList, h a List.mem_cons_self b, tail]

/-- The comparison answers `true` exactly for equal terms. -/
theorem beq_iff (s t : Term) : beq s t = true ↔ s = t := by
  induction s using Term.induction generalizing t with
  | app h as ihHead ihArgs => cases t <;> simp [beq, ihHead, beqList_iff ihArgs]
  | pi x d c ihDomain ihCodomain => cases t <;> simp [beq, ihDomain, ihCodomain, and_assoc]
  | lam x d b ihDomain ihBody => cases t <;> simp [beq, ihDomain, ihBody, and_assoc]
  | letIn x v u b ihValue ihType ihBody =>
    cases t <;> simp [beq, ihValue, ihType, ihBody, and_assoc]
  | _ => cases t <;> simp [beq, and_assoc]

instance : DecidableEq Term := fun s t => decidable_of_iff (beq s t = true) (beq_iff s t)

end Readback.Term
