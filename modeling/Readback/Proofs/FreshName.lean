import Readback.FreshName
import Mathlib.Data.List.DropRight
import Mathlib.Data.List.Shortlex

/-!
# Fresh names are fresh

Counting up a name touches no more than the digits at its end, and makes a greater number of them.
So it leads to a greater name in the order that puts shorter names first and compares names of one
length by their characters, and the search for a fresh name, which leaves out the names that it has
met, finds one that is not used at all.

## Main definitions

* `Precedes` — the order by length, then by characters

## Main statements

* `increment_of_rtakeWhile_eq_nil`, `toList_increment_of_rtakeWhile_ne_nil` — the next name, without
  and with digits at the end
* `exists_toList_increment` — the next name has other digits at its end, and is the same before
* `precedes_increment` — the next name is greater
* `freshName_not_mem` — a fresh name is not used
-/

namespace Readback

/-- The name is shorter than the other, or as long and smaller by its characters. -/
def Precedes (a b : String) : Prop := List.Shortlex (· < ·) a.toList b.toList

/-- Where single elements are compared in a transitive way, so are lists by length and then one
after the other. -/
theorem shortlex_trans {α : Type} {r : α → α → Prop} [IsTrans α r] {s t u : List α}
    (first : List.Shortlex r s t) (second : List.Shortlex r t u) : List.Shortlex r s u := by
  rcases List.shortlex_def.mp first with shorter | ⟨same, smaller⟩ <;>
    rcases List.shortlex_def.mp second with shorter' | ⟨same', smaller'⟩
  · exact .of_length_lt (shorter.trans shorter')
  · exact .of_length_lt (same' ▸ shorter)
  · exact .of_length_lt (same ▸ shorter')
  · exact .of_lex (same.trans same') (List.lex_trans (IsTrans.trans _ _ _) smaller smaller')

theorem shortlex_irrefl {α : Type} {r : α → α → Prop} [Std.Asymm r] (s : List α) :
    ¬ List.Shortlex r s s :=
  fun smaller => Std.Asymm.asymm s s smaller smaller

namespace Precedes

theorem irrefl (a : String) : ¬ Precedes a a := shortlex_irrefl a.toList

theorem trans {a b c : String} (first : Precedes a b) (second : Precedes b c) : Precedes a c :=
  shortlex_trans first second

end Precedes

/-! ## Counting up -/

/-- What is dropped at the end of a list can be dropped first. -/
theorem rdropWhile_append_of_pos {α : Type} {p : α → Bool} {s t : List α} (all : ∀ a ∈ t, p a) :
    (s ++ t).rdropWhile p = s.rdropWhile p := by
  have reversed : ∀ a ∈ t.reverse, p a := by simpa using all
  rw [List.rdropWhile, List.reverse_append, List.dropWhile_append_of_pos reversed, List.rdropWhile]

/-- Between lists of one length the lexicographic order is decided within them. -/
private theorem lex_append {a b : List Char} (smaller : List.Lex (· < ·) a b)
    (same : a.length = b.length) (s t : List Char) : List.Lex (· < ·) (a ++ s) (b ++ t) := by
  induction smaller with
  | nil => simp at same
  | rel less => exact .rel less
  | cons _ ih => exact .cons (ih (by simpa using same))

/-- The next digit has the next code. -/
theorem toNat_succ_digit {d : Char} (digit : d.isDigit) :
    (Char.ofNat (d.toNat + 1)).toNat = d.toNat + 1 := by
  -- the digits end at code 57, so that there is such a character
  have atMost : d.toNat ≤ 57 := (Char.isDigit_iff_toNat.mp digit).2
  have valid : (d.toNat + 1).isValidChar := .inl (by omega)
  rw [Char.ofNat, dif_pos valid]
  rfl

private theorem lt_succ_digit {d : Char} (digit : d.isDigit) : d < Char.ofNat (d.toNat + 1) := by
  rw [Char.lt_def, UInt32.lt_iff_toNat_lt]
  exact Nat.lt_of_lt_of_eq (Nat.lt_succ_self d.toNat) (toNat_succ_digit digit).symm

private theorem isDigit_succ {d : Char} (digit : d.isDigit) (notNine : d ≠ '9') :
    (Char.ofNat (d.toNat + 1)).isDigit := by
  have low : 48 ≤ d.toNat := (Char.isDigit_iff_toNat.mp digit).1
  have high : d.toNat ≤ 57 := (Char.isDigit_iff_toNat.mp digit).2
  have below : d.toNat ≠ 57 := fun nine => notNine (Char.toNat_inj.mp nine)
  have between : 48 ≤ d.toNat + 1 ∧ d.toNat + 1 ≤ 57 := by omega
  rw [Char.isDigit_iff_toNat, toNat_succ_digit digit]
  exact between

/-- Adding one to a number makes its digits greater, the first digit first. -/
theorem shortlex_bumpDigits {ds : List Char} (digits : ∀ d ∈ ds, d.isDigit) :
    List.Shortlex (· < ·) ds.reverse (bumpDigits ds).reverse := by
  induction ds with
  | nil => exact .of_length_lt (by simp [bumpDigits])
  | cons d ds ih =>
    have greater := ih fun c member => digits c (List.mem_cons_of_mem d member)
    rw [List.reverse_cons, bumpDigits]
    split
    next nine =>
      rw [List.reverse_cons]
      rcases List.shortlex_def.mp greater with longer | ⟨same, smaller⟩
      · exact .of_length_lt (by simpa using longer)
      · exact .of_lex (by simpa using same) (lex_append smaller same _ _)
    next =>
      rw [List.reverse_cons]
      refine .append_left ?_ _
      rw [List.shortlex_singleton_iff]
      exact lt_succ_digit (digits d List.mem_cons_self)

theorem isDigit_of_mem_bumpDigits {ds : List Char} (digits : ∀ d ∈ ds, d.isDigit) {c : Char}
    (member : c ∈ bumpDigits ds) : c.isDigit := by
  induction ds with
  | nil =>
    rw [bumpDigits, List.mem_singleton] at member
    rw [member]
    rfl
  | cons d ds ih =>
    have later := ih fun e inRest => digits e (List.mem_cons_of_mem d inRest)
    rw [bumpDigits] at member
    by_cases nine : d = '9'
    · rw [if_pos nine] at member
      rcases List.mem_cons.mp member with rfl | inRest
      · rfl
      · exact later inRest
    · rw [if_neg nine] at member
      rcases List.mem_cons.mp member with rfl | inRest
      · exact isDigit_succ (digits d List.mem_cons_self) nine
      · exact digits c (List.mem_cons_of_mem d inRest)

/-- A name without digits at its end gets a zero. -/
theorem increment_of_rtakeWhile_eq_nil {name : String}
    (none : name.toList.rtakeWhile Char.isDigit = []) : increment name = name ++ "0" := by
  rw [List.rtakeWhile, List.reverse_eq_nil_iff] at none
  apply String.toList_inj.mp
  rw [increment, none, String.toList_push, String.toList_append]
  rfl

/-- The digits at the end of a name are counted up, the last one first. -/
theorem toList_increment_of_rtakeWhile_ne_nil {name : String}
    (some : name.toList.rtakeWhile Char.isDigit ≠ []) :
    (increment name).toList = name.toList.rdropWhile Char.isDigit ++
      (bumpDigits (name.toList.rtakeWhile Char.isDigit).reverse).reverse := by
  rw [List.rtakeWhile, ne_eq, List.reverse_eq_nil_iff] at some
  rw [increment, List.rtakeWhile, List.rdropWhile, List.reverse_reverse]
  split
  next none => exact absurd none some
  next => rw [String.toList_ofList, List.reverse_append]

/-- The next name has other digits at its end, which are those of a greater number. What stands
before the digits stays. -/
theorem exists_toList_increment (name : String) : ∃ digits : List Char,
    (increment name).toList = name.toList.rdropWhile Char.isDigit ++ digits ∧
      (∀ c ∈ digits, c.isDigit) ∧
      List.Shortlex (· < ·) (name.toList.rtakeWhile Char.isDigit) digits := by
  by_cases none : name.toList.rtakeWhile Char.isDigit = []
  · have kept := List.rdropWhile_append_rtakeWhile (p := Char.isDigit) (l := name.toList)
    rw [none, List.append_nil] at kept
    rw [none, kept, increment_of_rtakeWhile_eq_nil none, String.toList_append]
    exact ⟨['0'], rfl, by simp, .of_length_lt (by simp)⟩
  · have digits : ∀ d ∈ (name.toList.rtakeWhile Char.isDigit).reverse, d.isDigit :=
      fun d member => List.mem_rtakeWhile_imp (List.mem_reverse.mp member)
    refine ⟨_, toList_increment_of_rtakeWhile_ne_nil none, fun c member => ?_, ?_⟩
    · exact isDigit_of_mem_bumpDigits digits (List.mem_reverse.mp member)
    · simpa using shortlex_bumpDigits digits

/-- The next name is greater. -/
theorem precedes_increment (name : String) : Precedes name (increment name) := by
  obtain ⟨digits, next, -, greater⟩ := exists_toList_increment name
  have whole := greater.append_left (name.toList.rdropWhile Char.isDigit)
  rwa [List.rdropWhile_append_rtakeWhile, ← next] at whole

namespace FreshName

/-- The search ends at its base or at a greater name, and not at a used one. -/
theorem search_spec (base : String) (used : List String) :
    (search base used).name ∉ used ∧
      ((search base used).name = base ∨ Precedes base (search base used).name) := by
  fun_induction search base used with
  | case1 base used taken shorter rest ih =>
    obtain ⟨unused, later⟩ := ih
    have greater : Precedes base rest.name := by
      rcases later with same | later
      · rw [same]
        exact precedes_increment base
      · exact (precedes_increment base).trans later
    refine ⟨?_, .inr greater⟩
    -- the rest of the search does not look for `base`, but it only meets greater names
    intro member
    have different : rest.name ≠ base := fun same => Precedes.irrefl base (same ▸ greater)
    exact unused ((List.mem_erase_of_ne different).mpr member)
  | case2 base used free => exact ⟨free, .inl rfl⟩

end FreshName

/-- A fresh name is not used. -/
theorem freshName_not_mem (base : String) (used : List String) : freshName base used ∉ used :=
  (FreshName.search_spec base used).1

end Readback
