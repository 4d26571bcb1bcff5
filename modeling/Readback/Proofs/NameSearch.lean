import Readback.Proofs.FreshName
import Mathlib.Data.Finset.Card
import Mathlib.Order.Monotone.Basic

/-!
# Counting to a fresh name

The search for a fresh name counts a base up until it comes to a name that is not used. Counting
makes names greater, also by their bytes, and so never comes back to a name. This bounds the search:
it passes used names only, each of them once. It also keeps the names apart that are found one after
another, when each of them is used from then on.

Two names may well have the same next name, as `x9` and `x09` have. So no number bounds the search,
and what grows is the name as a whole.

## Main definitions

* `nameBytes`, `PrecedesInBytes` — the bytes of a name, and the order by their number and then by
  themselves
* `FreshName.Asks` — asking for one name after the other, until one is not used
* `freshNames` — fresh names for several bases, one after the other

## Main statements

* `precedesInBytes_increment`, `iterate_increment_injective` — counting goes up and never comes back
* `FreshName.asks_iff` — the search asks for one name after the other
* `FreshName.exists_first_free` — it finds the first name that is not used
* `fresh_names_count_up` — the search, and searches in a row
-/

namespace Readback

/-! ## Names in the order of their bytes -/

/-- The bytes of a name. -/
def nameBytes (name : String) : List UInt8 := name.toByteArray.data.toList

/-- The name has fewer bytes than the other, or as many and is smaller by them. -/
def PrecedesInBytes (a b : String) : Prop := List.Shortlex (· < ·) (nameBytes a) (nameBytes b)

instance : IsTrans String PrecedesInBytes := ⟨fun _ _ _ => shortlex_trans⟩

theorem PrecedesInBytes.ne {a b : String} (less : PrecedesInBytes a b) : a ≠ b := by
  rintro rfl
  exact shortlex_irrefl _ less

theorem nameBytes_eq (name : String) :
    nameBytes name = name.toList.flatMap String.utf8EncodeChar := by
  rw [nameBytes, ← String.utf8Encode_toList, List.utf8Encode, List.data_toByteArray]

section Digits

variable {d e : Char} {ds es : List Char}

private theorem toNat_byte (digit : d.isDigit) : d.toUInt8.toNat = d.toNat := by
  have atMost : d.toNat ≤ 57 := (Char.isDigit_iff_toNat.mp digit).2
  have small : d.toNat < 256 := by omega
  exact (UInt32.toNat_toUInt8 d.val).trans (Nat.mod_eq_of_lt small)

/-- A digit has one byte. -/
private theorem bytes_of_digits (digits : ∀ d ∈ ds, d.isDigit) :
    ds.flatMap String.utf8EncodeChar = ds.map Char.toUInt8 := by
  induction ds with
  | nil => rfl
  | cons d ds ih =>
    obtain ⟨digit, digits⟩ := List.forall_mem_cons.mp digits
    have atMost : d.toNat ≤ 57 := (Char.isDigit_iff_toNat.mp digit).2
    have single : d.utf8Size = 1 :=
      Char.utf8Size_eq_one_iff.mpr (UInt32.le_iff_toNat_le.mpr (atMost.trans (by decide)))
    rw [List.flatMap_cons, ih digits, String.utf8EncodeChar_eq_singleton single]
    rfl

private theorem lex_bytes (smaller : List.Lex (· < ·) ds es) (digits : ∀ d ∈ ds, d.isDigit)
    (digits' : ∀ e ∈ es, e.isDigit) :
    List.Lex (· < ·) (ds.map Char.toUInt8) (es.map Char.toUInt8) := by
  induction smaller with
  | nil => exact .nil
  | @rel d ds e es less =>
    refine .rel ?_
    rw [UInt8.lt_iff_toNat_lt, toNat_byte (digits d List.mem_cons_self),
      toNat_byte (digits' e List.mem_cons_self)]
    exact less
  | cons _ ih =>
    exact .cons (ih (List.forall_mem_cons.mp digits).2 (List.forall_mem_cons.mp digits').2)

/-- Numbers are compared by their bytes as they are by their digits. -/
private theorem shortlex_bytes (smaller : List.Shortlex (· < ·) ds es)
    (digits : ∀ d ∈ ds, d.isDigit) (digits' : ∀ e ∈ es, e.isDigit) :
    List.Shortlex (· < ·) (ds.flatMap String.utf8EncodeChar)
      (es.flatMap String.utf8EncodeChar) := by
  rw [bytes_of_digits digits, bytes_of_digits digits']
  rcases List.shortlex_def.mp smaller with shorter | ⟨same, smaller⟩
  · exact .of_length_lt (by simpa using shorter)
  · exact .of_lex (by simpa using same) (lex_bytes smaller digits digits')

end Digits

/-- The next name is greater by its bytes. -/
theorem precedesInBytes_increment (name : String) : PrecedesInBytes name (increment name) := by
  obtain ⟨digits, next, areDigits, greater⟩ := exists_toList_increment name
  have wereDigits : ∀ c ∈ name.toList.rtakeWhile Char.isDigit, c.isDigit :=
    fun c member => List.mem_rtakeWhile_imp member
  have whole := (shortlex_bytes greater wereDigits areDigits).append_left
    ((name.toList.rdropWhile Char.isDigit).flatMap String.utf8EncodeChar)
  rw [← List.flatMap_append, ← List.flatMap_append, List.rdropWhile_append_rtakeWhile, ← next]
    at whole
  rwa [PrecedesInBytes, nameBytes_eq, nameBytes_eq]

/-- Counting on leads to greater names. -/
theorem precedesInBytes_iterate (base : String) {j k : Nat} (less : j < k) :
    PrecedesInBytes (increment^[j] base) (increment^[k] base) := by
  apply Nat.rel_of_forall_rel_succ_of_lt PrecedesInBytes (fun n => ?_) less
  rw [Function.iterate_succ_apply']
  exact precedesInBytes_increment _

/-- Counting never comes back to a name. -/
theorem iterate_increment_injective (base : String) :
    Function.Injective fun k => increment^[k] base :=
  Function.Injective.of_lt_imp_ne fun _ _ less => (precedesInBytes_iterate base less).ne

/-! ## The search -/

namespace FreshName

/-- Asking for names from a base on comes to the first one that is not used, with so many
questions. -/
inductive Asks (isUsed : String → Prop) : String → String → Nat → Prop
  | free {base : String} (free : ¬ isUsed base) : Asks isUsed base base 1
  | taken {base name : String} {count : Nat} (taken : isUsed base)
      (asks : Asks isUsed (increment base) name count) : Asks isUsed base name (count + 1)

variable {isUsed : String → Prop} {base name name' : String} {used : List String}
  {count count' : Nat}

theorem Asks.unique (asks : Asks isUsed base name count) (asks' : Asks isUsed base name' count') :
    name = name' ∧ count = count' := by
  induction asks generalizing count' with
  | free free =>
    cases asks' with
    | free _ => exact ⟨rfl, rfl⟩
    | taken taken _ => exact absurd taken free
  | taken taken _ ih =>
    cases asks' with
    | free free => exact absurd taken free
    | taken _ asks' =>
      obtain ⟨rfl, rfl⟩ := ih asks'
      exact ⟨rfl, rfl⟩

/-- Where all names before one are used, but not this one itself, asking comes to it. -/
theorem asks_iterate {k : Nat} (before : ∀ j < k, isUsed (increment^[j] base))
    (free : ¬ isUsed (increment^[k] base)) : Asks isUsed base (increment^[k] base) (k + 1) := by
  induction k generalizing base with
  | zero => exact .free free
  | succ k ih =>
    refine .taken (before 0 k.succ_pos) (ih (fun j less => ?_) free)
    exact before (j + 1) (Nat.succ_lt_succ less)

/-- The search counts up from the base past used names only, and looks up all names to the one that
it finds. -/
theorem exists_search_eq (base : String) (used : List String) : ∃ k,
    search base used = ⟨increment^[k] base, k + 1⟩ ∧ ∀ j < k, increment^[j] base ∈ used := by
  fun_induction search base used with
  | case1 base used taken shorter rest ih =>
    obtain ⟨k, found, before⟩ := ih
    refine ⟨k + 1, by rw [show rest = _ from found]; rfl, fun j less => ?_⟩
    cases j with
    | zero => exact taken
    | succ j => exact List.mem_of_mem_erase (before j (Nat.lt_of_succ_lt_succ less))
  | case2 base used free => exact ⟨0, rfl, fun j less => absurd less (Nat.not_lt_zero j)⟩

/-- The search finds the first name from the base on that is not used. -/
theorem exists_first_free (base : String) (used : List String) : ∃ k,
    search base used = ⟨increment^[k] base, k + 1⟩ ∧ increment^[k] base ∉ used ∧
      ∀ j < k, increment^[j] base ∈ used := by
  obtain ⟨k, found, before⟩ := exists_search_eq base used
  have free := (search_spec base used).1
  rw [found] at free
  exact ⟨k, found, free, before⟩

/-- The search asks for one name after the other, and whoever asks so comes to the same name with as
many questions. -/
theorem asks_iff : Asks (· ∈ used) base name count ↔ search base used = ⟨name, count⟩ := by
  obtain ⟨k, found, free, before⟩ := exists_first_free base used
  have asked := asks_iterate before free
  rw [found, Found.mk.injEq]
  constructor
  · intro asks
    exact asked.unique asks
  · rintro ⟨rfl, rfl⟩
    exact asked

end FreshName

/-- Names before the one that is found are used, so that there are no more of them than used
names. -/
theorem le_card_of_iterate_mem {base : String} {used : List String} {k : Nat}
    (before : ∀ j < k, increment^[j] base ∈ used) : k ≤ used.toFinset.card := by
  have met : (Finset.range k).image (fun j => increment^[j] base) ⊆ used.toFinset := by
    intro name member
    obtain ⟨j, less, rfl⟩ := Finset.mem_image.mp member
    exact List.mem_toFinset.mpr (before j (Finset.mem_range.mp less))
  calc
    k = ((Finset.range k).image fun j => increment^[j] base).card := by
      rw [Finset.card_image_of_injective _ (iterate_increment_injective base), Finset.card_range]
    _ ≤ used.toFinset.card := Finset.card_le_card met

/-! ## One fresh name after the other -/

/-- Fresh names for the bases in this order. A name that has been found is used from then on. -/
def freshNames : List String → List String → List String
  | [], _ => []
  | base :: bases, used =>
    let name := freshName base used
    name :: freshNames bases (name :: used)

theorem not_mem_of_mem_freshNames {bases used : List String} {name : String}
    (member : name ∈ freshNames bases used) : name ∉ used := by
  induction bases generalizing used with
  | nil => cases member
  | cons base bases ih =>
    rcases List.mem_cons.mp member with rfl | later
    · exact freshName_not_mem base used
    · exact fun before => ih later (List.mem_cons_of_mem _ before)

/-- No name is found twice. -/
theorem nodup_freshNames (bases used : List String) : (freshNames bases used).Nodup := by
  induction bases generalizing used with
  | nil => exact List.nodup_nil
  | cons base bases ih =>
    refine List.nodup_cons.mpr ⟨fun again => ?_, ih _⟩
    exact not_mem_of_mem_freshNames again List.mem_cons_self

theorem exists_iterate_of_mem_freshNames {base : String} {used : List String} {n : Nat}
    {name : String} (member : name ∈ freshNames (List.replicate n base) used) :
    ∃ k, name = increment^[k] base := by
  induction n generalizing used with
  | zero => cases member
  | succ n ih =>
    rcases List.mem_cons.mp member with rfl | later
    · obtain ⟨k, found, -⟩ := FreshName.exists_search_eq base used
      exact ⟨k, by rw [freshName, found]⟩
    · exact ih later

/-- The names for one base are found in increasing order. -/
theorem pairwise_freshNames (base : String) (used : List String) (n : Nat) :
    (freshNames (List.replicate n base) used).Pairwise PrecedesInBytes := by
  induction n generalizing used with
  | zero => exact .nil
  | succ n ih =>
    refine List.pairwise_cons.mpr ⟨fun later member => ?_, ih _⟩
    obtain ⟨k, found, before⟩ := FreshName.exists_search_eq base used
    obtain ⟨m, rfl⟩ := exists_iterate_of_mem_freshNames member
    have free := not_mem_of_mem_freshNames member
    have first : freshName base used = increment^[k] base := by rw [freshName, found]
    rw [first] at free ⊢
    apply precedesInBytes_iterate base
    by_contra notLater
    rcases Nat.lt_or_eq_of_le (Nat.le_of_not_lt notLater) with less | rfl
    · exact free (List.mem_cons_of_mem _ (before m less))
    · exact free List.mem_cons_self

/-- The search for a fresh name ends, with the first name from the base on that is not used. It
passes no more names than are used, and asks for each of them and for the last one once. Counting
from a base never comes back to a name. So names that are found one after the other, each of them
being used from then on, are all different, and for one base they are found in increasing order. -/
theorem fresh_names_count_up (base : String) (used : List String) :
    (∃ k ≤ used.toFinset.card, FreshName.search base used = ⟨increment^[k] base, k + 1⟩ ∧
      FreshName.Asks (· ∈ used) base (increment^[k] base) (k + 1) ∧
      increment^[k] base ∉ used ∧ ∀ j < k, increment^[j] base ∈ used) ∧
    (Function.Injective fun k => increment^[k] base) ∧
    (∀ bases, (freshNames bases used).Nodup ∧ ∀ name ∈ freshNames bases used, name ∉ used) ∧
    ∀ n, (freshNames (List.replicate n base) used).Pairwise PrecedesInBytes := by
  refine ⟨?_, iterate_increment_injective base, fun bases => ?_, pairwise_freshNames base used⟩
  · obtain ⟨k, found, free, before⟩ := FreshName.exists_first_free base used
    exact ⟨k, le_card_of_iterate_mem before, found, FreshName.asks_iff.mpr found, free, before⟩
  · exact ⟨nodup_freshNames bases used, fun name member => not_mem_of_mem_freshNames member⟩

example : FreshName.search "x9" ["x10", "x9", "x"] = ⟨"x11", 3⟩ := by decide +kernel

end Readback
