import Mathlib.Data.List.Forall2

/-!
# Computations that may fail

A computation in sequence answers exactly when each of its parts does, and otherwise fails with the
first that fails.
-/

namespace Readback

variable {ε δ α β : Type}

theorem bind_eq_ok {x : Except ε α} {f : α → Except ε β} {b : β} :
    x >>= f = .ok b ↔ ∃ a, x = .ok a ∧ f a = .ok b := by
  cases x <;> simp [bind, Except.bind]

theorem bind_eq_error {x : Except ε α} {f : α → Except ε β} {e : ε} :
    x >>= f = .error e ↔ x = .error e ∨ ∃ a, x = .ok a ∧ f a = .error e := by
  cases x <;> simp [bind, Except.bind]

@[simp] theorem mapError_error (e : ε) (f : ε → δ) :
    (Except.error e : Except ε α).mapError f = .error (f e) := rfl

@[simp] theorem mapError_ok (a : α) (f : ε → δ) : (Except.ok a).mapError f = .ok a := rfl

theorem mapError_eq_ok {x : Except ε α} {f : ε → δ} {a : α} :
    x.mapError f = .ok a ↔ x = .ok a := by
  cases x <;> simp

theorem mapError_eq_error {x : Except ε α} {f : ε → δ} {d : δ} :
    x.mapError f = .error d ↔ ∃ e, x = .error e ∧ f e = d := by
  cases x <;> simp

/-- What comes after a refusal is computed where nothing is refused. -/
theorem unless_throw_eq_ok {refused : Prop} [Decidable refused] {e : ε} {next : PUnit → Except ε α}
    {rest : Except ε α} {a : α} :
    (if refused then throw e >>= next else rest) = .ok a ↔ ¬ refused ∧ rest = .ok a := by
  by_cases refused <;> simp [*, bind, Except.bind, throw, throwThe, MonadExceptOf.throw]

theorem unless_throw_pure_eq_ok {refused : Prop} [Decidable refused] {e : ε} :
    (if refused then throw e else pure () : Except ε Unit) = .ok () ↔ ¬ refused := by
  by_cases refused <;> simp [*, throw, throwThe, MonadExceptOf.throw, pure, Except.pure]

/-- A list is computed when each of its elements is. -/
theorem mapM_eq_ok {f : α → Except ε β} {xs : List α} {ys : List β} :
    xs.mapM f = .ok ys ↔ List.Forall₂ (fun x y => f x = .ok y) xs ys := by
  induction xs generalizing ys with
  | nil => simp [pure, Except.pure, eq_comm]
  | cons x xs ih =>
    rw [List.mapM_cons, bind_eq_ok, List.forall₂_cons_left_iff]
    constructor
    · rintro ⟨y, computed, rest⟩
      obtain ⟨ys', computedRest, same⟩ := bind_eq_ok.mp rest
      exact ⟨y, ys', computed, ih.mp computedRest, (Except.ok.inj same).symm⟩
    · rintro ⟨y, ys', computed, computedRest, rfl⟩
      exact ⟨y, computed, bind_eq_ok.mpr ⟨ys', ih.mpr computedRest, rfl⟩⟩

/-- If there is one error only, then a list fails with it as soon as one of its elements does. -/
theorem mapM_cases {f : α → Except ε β} {e : ε} {xs : List α}
    (each : ∀ x ∈ xs, (∃ y, f x = .ok y) ∨ f x = .error e) :
    ((∃ ys, xs.mapM f = .ok ys) ∧ ∀ x ∈ xs, ∃ y, f x = .ok y) ∨
      xs.mapM f = .error e ∧ ∃ x ∈ xs, f x = .error e := by
  induction xs with
  | nil => exact .inl ⟨⟨[], rfl⟩, by simp⟩
  | cons x xs ih =>
    rw [List.mapM_cons]
    rcases each x List.mem_cons_self with ⟨y, computed⟩ | failed
    · rcases ih fun x' member => each x' (List.mem_cons_of_mem x member) with
        ⟨⟨ys, computedRest⟩, all⟩ | ⟨failedRest, x', member, failed⟩
      · refine .inl ⟨⟨y :: ys, by rw [computed, computedRest]; rfl⟩, ?_⟩
        exact List.forall_mem_cons.mpr ⟨⟨y, computed⟩, all⟩
      · refine .inr ⟨by rw [computed, failedRest]; rfl, x', ?_, failed⟩
        exact List.mem_cons_of_mem x member
    · exact .inr ⟨by rw [failed]; rfl, x, List.mem_cons_self, failed⟩

end Readback
