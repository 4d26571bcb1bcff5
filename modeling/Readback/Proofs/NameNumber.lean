import Readback.Proofs.NameSearch

/-!
# The number at the end of a name

A name is a stem and the digits behind it, all that stand at its end. Counting up adds one to the
number that they denote. It keeps the stem, and as many digits as there are, so that zeros in front
of the number stay. Only where all of them are nines there is one more.

## Main definitions

* `NumberedAs` — a name is a stem with a number

## Main statements

* `numberedAs_iff` — the stem and the digits of a name
* `ofDigitChars_bumpDigits`, `length_bumpDigits`, `bumpDigits_of_nines` — the next number
* `increment_adds_one` — counting a name up
-/

namespace Readback

/-- The name is the stem with the digits behind it, and the stem does not end in a digit. -/
structure NumberedAs (name stem digits : String) : Prop where
  eq_append : name = stem ++ digits
  isDigit : ∀ c ∈ digits.toList, c.isDigit
  maximal : ∀ c ∈ stem.toList.getLast?, c.isDigit = false

section Split

variable {name stem digits : String}

/-- The digits are all that stand at the end of the name, and the stem is what is left. -/
theorem numberedAs_iff : NumberedAs name stem digits ↔
    stem.toList = name.toList.rdropWhile Char.isDigit ∧
      digits.toList = name.toList.rtakeWhile Char.isDigit := by
  constructor
  · rintro ⟨rfl, areDigits, maximal⟩
    have kept : stem.toList.rdropWhile Char.isDigit = stem.toList := by
      refine List.rdropWhile_eq_self_iff.mpr fun some => ?_
      rw [maximal _ (List.getLast?_eq_some_getLast some)]
      exact Bool.false_ne_true
    have stem_eq : stem.toList = (stem ++ digits).toList.rdropWhile Char.isDigit := by
      rw [String.toList_append, rdropWhile_append_of_pos areDigits, kept]
    refine ⟨stem_eq, ?_⟩
    have whole :=
      List.rdropWhile_append_rtakeWhile (p := Char.isDigit) (l := (stem ++ digits).toList)
    rw [← stem_eq, String.toList_append] at whole
    rw [String.toList_append]
    exact (List.append_cancel_left whole).symm
  · rintro ⟨stem_eq, digits_eq⟩
    refine ⟨?_, fun c member => ?_, fun c last => ?_⟩
    · apply String.toList_inj.mp
      rw [String.toList_append, stem_eq, digits_eq, List.rdropWhile_append_rtakeWhile]
    · rw [digits_eq] at member
      exact List.mem_rtakeWhile_imp member
    · rw [stem_eq] at last
      obtain ⟨some, rfl⟩ := List.mem_getLast?_eq_getLast last
      simpa using List.rdropWhile_last_not Char.isDigit name.toList some

/-- Every name is a stem with a number in exactly one way. -/
theorem existsUnique_numberedAs (name : String) :
    ∃! parts : String × String, NumberedAs name parts.1 parts.2 := by
  refine ⟨(String.ofList (name.toList.rdropWhile Char.isDigit),
    String.ofList (name.toList.rtakeWhile Char.isDigit)), ?_, ?_⟩
  · exact numberedAs_iff.mpr ⟨String.toList_ofList, String.toList_ofList⟩
  · rintro ⟨stem, digits⟩ numbered
    obtain ⟨stem_eq, digits_eq⟩ := numberedAs_iff.mp numbered
    rw [← stem_eq, ← digits_eq, String.ofList_toList, String.ofList_toList]

end Split

/-! ## The next number -/

section Digits

variable {ds : List Char}

/-- The next number is greater by one. -/
theorem ofDigitChars_bumpDigits (digits : ∀ d ∈ ds, d.isDigit) :
    Nat.ofDigitChars 10 (bumpDigits ds).reverse 0 = Nat.ofDigitChars 10 ds.reverse 0 + 1 := by
  induction ds with
  | nil => rfl
  | cons d ds ih =>
    obtain ⟨digit, digits⟩ := List.forall_mem_cons.mp digits
    rw [bumpDigits]
    by_cases nine : d = '9'
    · rw [if_pos nine, nine]
      simp only [List.reverse_cons, Nat.ofDigitChars_append, ih digits, Nat.ofDigitChars_cons,
        Nat.ofDigitChars_nil, Char.reduceToNat]
      omega
    · have low : 48 ≤ d.toNat := (Char.isDigit_iff_toNat.mp digit).1
      rw [if_neg nine]
      simp only [List.reverse_cons, Nat.ofDigitChars_append, Nat.ofDigitChars_cons,
        Nat.ofDigitChars_nil, toNat_succ_digit digit, Char.reduceToNat]
      omega

/-- The number of digits stays, if one of them is no nine. -/
theorem length_bumpDigits (some : ∃ d ∈ ds, d ≠ '9') : (bumpDigits ds).length = ds.length := by
  induction ds with
  | nil => simp at some
  | cons d ds ih =>
    rw [bumpDigits]
    by_cases nine : d = '9'
    · have later : ∃ e ∈ ds, e ≠ '9' := by simpa [nine] using some
      rw [if_pos nine, List.length_cons, ih later, List.length_cons]
    · rw [if_neg nine, List.length_cons, List.length_cons]

/-- Nines become zeros, with a one in front. -/
theorem bumpDigits_of_nines (nines : ∀ d ∈ ds, d = '9') :
    bumpDigits ds = List.replicate ds.length '0' ++ ['1'] := by
  induction ds with
  | nil => rfl
  | cons d ds ih =>
    obtain ⟨nine, nines⟩ := List.forall_mem_cons.mp nines
    rw [bumpDigits, if_pos nine, ih nines, List.length_cons, List.replicate_succ, List.cons_append]

end Digits

/-! ## The next name -/

section Increment

variable {name stem digits : String}

/-- A name without a number gets a zero. -/
theorem NumberedAs.increment_of_empty (numbered : NumberedAs name stem "") :
    increment name = name ++ "0" := by
  obtain ⟨-, none⟩ := numberedAs_iff.mp numbered
  exact increment_of_rtakeWhile_eq_nil none.symm

/-- The next name has the same stem and the next number. -/
theorem NumberedAs.increment (numbered : NumberedAs name stem digits) (some : digits ≠ "") :
    NumberedAs (increment name) stem
      (String.ofList (bumpDigits digits.toList.reverse).reverse) := by
  obtain ⟨stem_eq, digits_eq⟩ := numberedAs_iff.mp numbered
  have some' : name.toList.rtakeWhile Char.isDigit ≠ [] := by
    rwa [← digits_eq, ne_eq, String.toList_eq_nil_iff]
  refine ⟨?_, fun c member => ?_, numbered.maximal⟩
  · apply String.toList_inj.mp
    rw [toList_increment_of_rtakeWhile_ne_nil some', ← stem_eq, ← digits_eq, String.toList_append,
      String.toList_ofList]
  · rw [String.toList_ofList, List.mem_reverse] at member
    have areDigits : ∀ d ∈ digits.toList.reverse, d.isDigit := by simpa using numbered.isDigit
    exact isDigit_of_mem_bumpDigits areDigits member

/-- Every name is a stem with a number at its end, in one way, and counting up leads to a greater
name. A name without a number gets a zero. Otherwise the next name has the same stem with the next
number. This has as many digits, zeros in front included, unless all are nines, which become a one
with as many zeros. -/
theorem increment_adds_one (name : String) :
    (∃! parts : String × String, NumberedAs name parts.1 parts.2) ∧
    PrecedesInBytes name (increment name) ∧
    ∀ stem digits, NumberedAs name stem digits →
      (digits = "" → increment name = name ++ "0") ∧
      (digits ≠ "" → ∃ next, NumberedAs (increment name) stem next ∧
        Nat.ofDigitChars 10 next.toList 0 = Nat.ofDigitChars 10 digits.toList 0 + 1 ∧
        ((∃ c ∈ digits.toList, c ≠ '9') → next.length = digits.length) ∧
        ((∀ c ∈ digits.toList, c = '9') →
          next.toList = '1' :: List.replicate digits.length '0')) := by
  refine ⟨existsUnique_numberedAs name, precedesInBytes_increment name, fun stem digits numbered =>
    ⟨?_, fun some => ⟨_, numbered.increment some, ?_, fun other => ?_, fun nines => ?_⟩⟩⟩
  · rintro rfl
    exact numbered.increment_of_empty
  · have areDigits : ∀ d ∈ digits.toList.reverse, d.isDigit := by simpa using numbered.isDigit
    rw [String.toList_ofList, ofDigitChars_bumpDigits areDigits, List.reverse_reverse]
  · have other : ∃ d ∈ digits.toList.reverse, d ≠ '9' := by simpa using other
    rw [String.length_ofList, List.length_reverse, length_bumpDigits other, List.length_reverse,
      String.length_toList]
  · have nines : ∀ d ∈ digits.toList.reverse, d = '9' := by simpa using nines
    rw [String.toList_ofList, bumpDigits_of_nines nines, List.reverse_append, List.length_reverse,
      String.length_toList, List.reverse_replicate]
    rfl

end Increment

/-- The number behind a letter with an accent keeps its zero in front, and nines become one digit
more. Without a number the letter gets a zero. -/
theorem increment_adds_one_accented :
    (NumberedAs "é099" "é" "099" ∧ "099" ≠ "" ∧ (∃ c ∈ "099".toList, c ≠ '9') ∧
      ∃ next, NumberedAs (increment "é099") "é" next ∧ Nat.ofDigitChars 10 next.toList 0 = 100 ∧
        next.length = 3) ∧
      (NumberedAs "é99" "é" "99" ∧ "99" ≠ "" ∧ (∀ c ∈ "99".toList, c = '9') ∧
        increment "é99" = "é100") ∧
      NumberedAs "é" "é" "" ∧ increment "é" = "é0" := by
  have zero : NumberedAs "é099" "é" "099" := ⟨rfl, by simp, by simp⟩
  have nines : NumberedAs "é99" "é" "99" := ⟨rfl, by simp, by simp⟩
  have none : NumberedAs "é" "é" "" := ⟨rfl, by simp, by simp⟩
  have other : ∃ c ∈ "099".toList, c ≠ '9' := by simp
  have all : ∀ c ∈ "99".toList, c = '9' := by simp
  obtain ⟨-, -, counts⟩ := increment_adds_one "é099"
  obtain ⟨next, numbered, value, same, -⟩ := (counts "é" "099" zero).2 (by decide)
  obtain ⟨-, -, countsNines⟩ := increment_adds_one "é99"
  obtain ⟨nextNines, numberedNines, -, -, longer⟩ := (countsNines "é" "99" nines).2 (by decide)
  obtain ⟨-, -, starts⟩ := increment_adds_one "é"
  obtain rfl : nextNines = "100" := String.toList_inj.mp (longer all)
  exact ⟨⟨zero, by decide, other, next, numbered, value, same other⟩,
    ⟨nines, by decide, all, numberedNines.eq_append⟩, none, (starts "é" "" none).1 rfl⟩

end Readback
