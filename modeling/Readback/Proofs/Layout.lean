import Readback.Layout
import Mathlib.Data.List.Forall2

/-!
# The two numberings of constructors

The signatures of a declaration list its constructors with their positions, in increasing order. The
constants and the blocks divide them between themselves, so that a native number and the position
in the declaration determine each other.

## Main definitions

* `InductiveDecl.constants`, `InductiveDecl.blocks` — the constructors without and with fields
* `Signature.Signs` — the signature of a constructor

## Main statements

* `Layout.mem_signatures_iff` — the signatures are exactly the constructors at their positions
* `Layout.constants_append_blocks_perm` — the two sequences divide the signatures
* `Layout.position?_eq_immediate_iff`, `Layout.position?_eq_block_iff` — a position leads to a
  number exactly if the number leads to the position
* `Layout.exists_constant`, `Layout.exists_block` — every constructor has a number
* `Layout.forall₂_constants`, `Layout.forall₂_blocks` — the two sequences in the declaration
* `Layout.numbers_and_positions` — numbers and positions determine each other, in the same order
-/

namespace Readback.Layout

variable {d : InductiveDecl} {s : Signature} {i n : Nat}

theorem getElem?_signaturesFrom (start k : Nat) (cs : List ConstructorDecl) :
    (signaturesFrom start cs)[k]? = cs[k]?.map fun c => ⟨start + k, c.name, c.arity⟩ := by
  induction cs generalizing start k with
  | nil => rfl
  | cons c cs ih =>
    cases k with
    | zero => rfl
    | succ k =>
      have shifted : start + 1 + k = start + (k + 1) := by omega
      simp only [signaturesFrom, List.getElem?_cons_succ, ih, shifted]

/-- The signatures of a declaration are its constructors, each with its position. -/
theorem mem_signatures_iff :
    s ∈ signatures d ↔ ∃ c, d.constructor? s.index = some c ∧ s = ⟨s.index, c.name, c.arity⟩ := by
  rw [List.mem_iff_getElem?]
  constructor
  · rintro ⟨k, found⟩
    rw [signatures, getElem?_signaturesFrom] at found
    obtain ⟨c, declared, rfl⟩ := Option.map_eq_some_iff.mp found
    simp only [Nat.zero_add]
    exact ⟨c, declared, rfl⟩
  · rintro ⟨c, declared, same⟩
    refine ⟨s.index, ?_⟩
    rw [signatures, getElem?_signaturesFrom, show d.constructors[s.index]? = some c from declared,
      Option.map_some, Nat.zero_add, ← same]

/-- The positions of the constructors, in the order of the declaration. -/
theorem map_index_signatures (d : InductiveDecl) :
    (signatures d).map (·.index) = List.range d.constructors.length := by
  apply List.ext_getElem?
  intro k
  rw [List.getElem?_map, signatures, getElem?_signaturesFrom, Option.map_map]
  by_cases bound : k < d.constructors.length
  · simp [bound]
  · simp [bound]

theorem pairwise_signatures (d : InductiveDecl) :
    (signatures d).Pairwise fun a b => a.index < b.index := by
  have increasing := List.pairwise_lt_range (n := d.constructors.length)
  rwa [← map_index_signatures, List.pairwise_map] at increasing

/-- A position belongs to one signature. -/
theorem eq_of_index_eq {t : Signature} (first : s ∈ signatures d) (second : t ∈ signatures d)
    (same : s.index = t.index) : s = t := by
  obtain ⟨c, declared, hs⟩ := mem_signatures_iff.mp first
  obtain ⟨c', declared', ht⟩ := mem_signatures_iff.mp second
  rw [same, declared'] at declared
  obtain rfl := Option.some.inj declared
  rw [hs, ht, same]

section Increasing

variable {l : List Signature}

/-- In a list with increasing positions, the first signature with a position is the only one. -/
private theorem findIdx?_index_iff (increasing : l.Pairwise fun a b => a.index < b.index) :
    l.findIdx? (·.index = i) = some n ↔ ∃ s, l[n]? = some s ∧ s.index = i := by
  rw [List.findIdx?_eq_some_iff_getElem]
  constructor
  · rintro ⟨bound, same, -⟩
    exact ⟨l[n], List.getElem?_eq_getElem bound, by simpa using same⟩
  · rintro ⟨s, found, rfl⟩
    obtain ⟨bound, rfl⟩ := List.getElem?_eq_some_iff.mp found
    refine ⟨bound, by simp, fun j earlier => ?_⟩
    have less := List.pairwise_iff_getElem.mp increasing j n (by omega) bound earlier
    simpa using Nat.ne_of_lt less

/-- In such a list positions are in the order of their numbers. -/
private theorem index_lt_iff (increasing : l.Pairwise fun a b => a.index < b.index)
    {t : Signature} {m : Nat} (first : l[n]? = some s) (second : l[m]? = some t) :
    s.index < t.index ↔ n < m := by
  obtain ⟨bound, rfl⟩ := List.getElem?_eq_some_iff.mp first
  obtain ⟨bound', rfl⟩ := List.getElem?_eq_some_iff.mp second
  rcases Nat.lt_trichotomy n m with less | rfl | greater
  · exact iff_of_true (List.pairwise_iff_getElem.mp increasing n m bound bound' less) less
  · exact iff_of_false (Nat.lt_irrefl _) (Nat.lt_irrefl _)
  · have smaller := List.pairwise_iff_getElem.mp increasing m n bound' bound greater
    exact iff_of_false (Nat.lt_asymm smaller) (Nat.lt_asymm greater)

end Increasing

theorem mem_constants_iff : s ∈ (of d).constants ↔ s ∈ signatures d ∧ s.arity = 0 := by
  simp [of]

theorem mem_blocks_iff : s ∈ (of d).blocks ↔ s ∈ signatures d ∧ s.arity ≠ 0 := by
  simp [of]

/-- Every constructor is in one of the two sequences. -/
theorem constants_append_blocks_perm (d : InductiveDecl) :
    ((of d).constants ++ (of d).blocks).Perm (signatures d) := by
  have divided := List.filter_append_perm (fun s : Signature => decide (s.arity = 0)) (signatures d)
  simpa [of] using divided

theorem pairwise_constants (d : InductiveDecl) :
    (of d).constants.Pairwise fun a b => a.index < b.index :=
  (pairwise_signatures d).filter _

theorem pairwise_blocks (d : InductiveDecl) :
    (of d).blocks.Pairwise fun a b => a.index < b.index :=
  (pairwise_signatures d).filter _

/-- A position leads to a number among the constants exactly if the number leads to the position. -/
theorem position?_eq_immediate_iff : (of d).position? i = some (.immediate, n) ↔
    ∃ s, (of d).constants[n]? = some s ∧ s.index = i := by
  rw [← findIdx?_index_iff (pairwise_constants d), position?]
  cases (of d).constants.findIdx? (·.index = i) with
  | some m => simp
  | none => simp

/-- So it is among the constructors with fields. -/
theorem position?_eq_block_iff : (of d).position? i = some (.block, n) ↔
    ∃ s, (of d).blocks[n]? = some s ∧ s.index = i := by
  rw [← findIdx?_index_iff (pairwise_blocks d), position?]
  cases constant : (of d).constants.findIdx? (·.index = i) with
  | none => simp
  | some m =>
    refine iff_of_false (by simp) fun block => ?_
    obtain ⟨s, numbered, same⟩ := (findIdx?_index_iff (pairwise_constants d)).mp constant
    obtain ⟨t, numbered', same'⟩ := (findIdx?_index_iff (pairwise_blocks d)).mp block
    obtain ⟨member, noFields⟩ := mem_constants_iff.mp (List.mem_of_getElem? numbered)
    obtain ⟨member', hasFields⟩ := mem_blocks_iff.mp (List.mem_of_getElem? numbered')
    obtain rfl := eq_of_index_eq member member' (same.trans same'.symm)
    exact hasFields noFields

/-- The position of a numbered constant leads back to its number. -/
theorem position?_of_constant (found : (of d).constants[n]? = some s) :
    (of d).position? s.index = some (.immediate, n) :=
  position?_eq_immediate_iff.mpr ⟨s, found, rfl⟩

/-- The position of a numbered constructor with fields leads back to its number. -/
theorem position?_of_block (found : (of d).blocks[n]? = some s) :
    (of d).position? s.index = some (.block, n) :=
  position?_eq_block_iff.mpr ⟨s, found, rfl⟩

/-- A constructor without fields has a number among the constants. -/
theorem exists_constant {index : Nat} {c : ConstructorDecl}
    (declared : d.constructor? index = some c) (noFields : c.arity = 0) :
    ∃ n : Nat, (of d).constants[n]? = some ⟨index, c.name, c.arity⟩ := by
  rw [← List.mem_iff_getElem?, mem_constants_iff, mem_signatures_iff]
  exact ⟨⟨c, declared, rfl⟩, noFields⟩

/-- A constructor with fields has a number among the blocks. -/
theorem exists_block {index : Nat} {c : ConstructorDecl}
    (declared : d.constructor? index = some c) (hasFields : c.arity ≠ 0) :
    ∃ n : Nat, (of d).blocks[n]? = some ⟨index, c.name, c.arity⟩ := by
  rw [← List.mem_iff_getElem?, mem_blocks_iff, mem_signatures_iff]
  exact ⟨⟨c, declared, rfl⟩, hasFields⟩

end Readback.Layout

/-! ## The two sequences in the declaration -/

namespace Readback

/-- The constructors without fields. -/
def InductiveDecl.constants (d : InductiveDecl) : List ConstructorDecl :=
  d.constructors.filter (·.arity = 0)

/-- The constructors with fields. -/
def InductiveDecl.blocks (d : InductiveDecl) : List ConstructorDecl :=
  d.constructors.filter (·.arity ≠ 0)

/-- The signature is that of a constructor, at its position in the declaration. -/
structure Signature.Signs (d : InductiveDecl) (s : Signature) (c : ConstructorDecl) : Prop where
  declared : d.constructor? s.index = some c
  name_eq : s.name = c.name
  arity_eq : s.arity = c.arity

/-- What stands at a place of one list is related to what stands there in the other. -/
theorem exists_getElem?_of_forall₂ {α β : Type} {R : α → β → Prop} {xs : List α} {ys : List β}
    {n : Nat} {x : α} (related : List.Forall₂ R xs ys) (found : xs[n]? = some x) :
    ∃ y, ys[n]? = some y ∧ R x y := by
  induction related generalizing n with
  | nil => simp at found
  | cons first rest ih =>
    cases n with
    | zero =>
      obtain rfl := Option.some.inj found
      exact ⟨_, rfl, first⟩
    | succ n => exact ih found

namespace Layout

variable {d : InductiveDecl}

theorem forall₂_signatures (d : InductiveDecl) :
    List.Forall₂ (Signature.Signs d) (signatures d) d.constructors := by
  suffices splitAt : ∀ before cs, d.constructors = before ++ cs →
      List.Forall₂ (Signature.Signs d) (signaturesFrom before.length cs) cs from splitAt [] _ rfl
  intro before cs
  induction cs generalizing before with
  | nil => simp [signaturesFrom]
  | cons c cs ih =>
    intro split
    refine .cons ⟨?_, rfl, rfl⟩ ?_
    · simp [InductiveDecl.constructor?, split]
    · simpa using ih (before ++ [c]) (by simp [split])

/-- The constants are numbered as the declaration lists them. -/
theorem forall₂_constants (d : InductiveDecl) :
    List.Forall₂ (Signature.Signs d) (of d).constants d.constants :=
  List.rel_filter (fun s c signs => by simp [signs.arity_eq]) (forall₂_signatures d)

/-- The constructors with fields are numbered as the declaration lists them. -/
theorem forall₂_blocks (d : InductiveDecl) :
    List.Forall₂ (Signature.Signs d) (of d).blocks d.blocks :=
  List.rel_filter (fun s c signs => by simp [signs.arity_eq]) (forall₂_signatures d)

/-! ## Numbers and positions -/

variable {s : Signature} {i n : Nat}

/-- A signature of the declaration is that of a constructor. -/
theorem exists_signs (member : s ∈ signatures d) : ∃ c, s.Signs d c := by
  obtain ⟨c, declared, same⟩ := mem_signatures_iff.mp member
  exact ⟨c, declared, congrArg Signature.name same, congrArg Signature.arity same⟩

/-- The numbers of constants are those of constructors without fields. -/
theorem exists_signs_of_constant (numbered : (of d).constants[n]? = some s) :
    s.arity = 0 ∧ ∃ c, s.Signs d c := by
  obtain ⟨member, noFields⟩ := mem_constants_iff.mp (List.mem_of_getElem? numbered)
  exact ⟨noFields, exists_signs member⟩

/-- The numbers of blocks are those of constructors with fields. -/
theorem exists_signs_of_block (numbered : (of d).blocks[n]? = some s) :
    s.arity ≠ 0 ∧ ∃ c, s.Signs d c := by
  obtain ⟨member, hasFields⟩ := mem_blocks_iff.mp (List.mem_of_getElem? numbered)
  exact ⟨hasFields, exists_signs member⟩

/-- A position that leads to a number is that of a constructor. -/
theorem exists_constructor_of_position? {place : Shape × Nat}
    (found : (of d).position? i = some place) : ∃ c, d.constructor? i = some c := by
  obtain ⟨shape, n⟩ := place
  cases shape with
  | immediate =>
    obtain ⟨s, numbered, rfl⟩ := position?_eq_immediate_iff.mp found
    obtain ⟨-, c, signs⟩ := exists_signs_of_constant numbered
    exact ⟨c, signs.declared⟩
  | block =>
    obtain ⟨s, numbered, rfl⟩ := position?_eq_block_iff.mp found
    obtain ⟨-, c, signs⟩ := exists_signs_of_block numbered
    exact ⟨c, signs.declared⟩

/-- Only positions beyond the declaration lead nowhere. -/
theorem position?_eq_none_iff : (of d).position? i = none ↔ d.constructors.length ≤ i := by
  rw [← List.getElem?_eq_none_iff, show d.constructors[i]? = d.constructor? i from rfl]
  constructor
  · intro nowhere
    cases declared : d.constructor? i with
    | none => rfl
    | some c =>
      by_cases noFields : c.arity = 0
      · obtain ⟨n, numbered⟩ := exists_constant declared noFields
        cases nowhere.symm.trans (position?_of_constant numbered)
      · obtain ⟨n, numbered⟩ := exists_block declared noFields
        cases nowhere.symm.trans (position?_of_block numbered)
  · intro beyond
    cases found : (of d).position? i with
    | none => rfl
    | some place =>
      obtain ⟨c, declared⟩ := exists_constructor_of_position? found
      cases beyond.symm.trans declared

/-- Constructors of one shape are numbered in the order of their positions. -/
theorem lt_iff_of_position? {j m : Nat} {shape : Shape}
    (first : (of d).position? i = some (shape, n))
    (second : (of d).position? j = some (shape, m)) : i < j ↔ n < m := by
  cases shape with
  | immediate =>
    obtain ⟨s, numbered, rfl⟩ := position?_eq_immediate_iff.mp first
    obtain ⟨t, numbered', rfl⟩ := position?_eq_immediate_iff.mp second
    exact index_lt_iff (pairwise_constants d) numbered numbered'
  | block =>
    obtain ⟨s, numbered, rfl⟩ := position?_eq_block_iff.mp first
    obtain ⟨t, numbered', rfl⟩ := position?_eq_block_iff.mp second
    exact index_lt_iff (pairwise_blocks d) numbered numbered'

private theorem exists_signs_iff {l : List Signature} (each : ∀ s ∈ l, ∃ c, s.Signs d c) :
    (∃ s, l[n]? = some s ∧ s.index = i) ↔
      ∃ s c, l[n]? = some s ∧ s.Signs d c ∧ s.index = i := by
  constructor
  · rintro ⟨s, found, same⟩
    obtain ⟨c, signs⟩ := each s (List.mem_of_getElem? found)
    exact ⟨s, c, found, signs, same⟩
  · rintro ⟨s, -, found, -, same⟩
    exact ⟨s, found, same⟩

/-- The two sequences divide the positions of the declaration between themselves, each in increasing
order. The constants are the constructors without fields, and the blocks are the others, each with
its own name and number of fields. A position leads to a number exactly if the constructor there is
found under this number, in the order of the declaration, and to none exactly if it is beyond the
declaration. -/
theorem numbers_and_positions (d : InductiveDecl) :
    (((of d).constants ++ (of d).blocks).map (·.index)).Perm (List.range d.constructors.length) ∧
    (of d).constants.Pairwise (fun a b => a.index < b.index) ∧
    (of d).blocks.Pairwise (fun a b => a.index < b.index) ∧
    (∀ s ∈ (of d).constants, s.arity = 0 ∧ ∃ c, s.Signs d c) ∧
    (∀ s ∈ (of d).blocks, s.arity ≠ 0 ∧ ∃ c, s.Signs d c) ∧
    (∀ i n, (of d).position? i = some (.immediate, n) ↔
      ∃ s c, (of d).constant? n = some s ∧ s.Signs d c ∧ s.index = i) ∧
    (∀ i n, (of d).position? i = some (.block, n) ↔
      ∃ s c, (of d).blocks[n]? = some s ∧ s.Signs d c ∧ s.index = i) ∧
    (∀ i (tag : UInt8), (of d).position? i = some (.block, tag.toNat) ↔
      ∃ s c, (of d).block? tag = some s ∧ s.Signs d c ∧ s.index = i) ∧
    (∀ i j shape n m, (of d).position? i = some (shape, n) →
      (of d).position? j = some (shape, m) → (i < j ↔ n < m)) ∧
    ∀ i, (of d).position? i = none ↔ d.constructors.length ≤ i := by
  have constants : ∀ s ∈ (of d).constants, s.arity = 0 ∧ ∃ c, s.Signs d c := by
    intro s member
    obtain ⟨n, numbered⟩ := List.mem_iff_getElem?.mp member
    exact exists_signs_of_constant numbered
  have blocks : ∀ s ∈ (of d).blocks, s.arity ≠ 0 ∧ ∃ c, s.Signs d c := by
    intro s member
    obtain ⟨n, numbered⟩ := List.mem_iff_getElem?.mp member
    exact exists_signs_of_block numbered
  have numbered : ∀ i n, (of d).position? i = some (.block, n) ↔
      ∃ s c, (of d).blocks[n]? = some s ∧ s.Signs d c ∧ s.index = i :=
    fun i n => position?_eq_block_iff.trans (exists_signs_iff fun s member => (blocks s member).2)
  refine ⟨?_, pairwise_constants d, pairwise_blocks d, constants, blocks, ?_, numbered, ?_, ?_, ?_⟩
  · rw [← map_index_signatures]
    exact (constants_append_blocks_perm d).map _
  · intro i n
    exact position?_eq_immediate_iff.trans
      (exists_signs_iff fun s member => (constants s member).2)
  · intro i tag
    exact numbered i tag.toNat
  · intro i j shape n m first second
    exact lt_iff_of_position? first second
  · intro i
    exact position?_eq_none_iff

/-- A declaration in which constructors without and with fields alternate. -/
def alternating : InductiveDecl where
  name := ⟨"t"⟩
  constructors := [⟨⟨"A"⟩, []⟩, ⟨⟨"B"⟩, [.sort .set]⟩, ⟨⟨"C"⟩, []⟩,
    ⟨⟨"D"⟩, [.sort .set, .sort .set]⟩]

/-- The second of the constants is declared third. The blocks are numbered in the order in which
they are declared, and there is no fifth constructor. -/
theorem numbers_and_positions_alternating :
    ⟨2, ⟨"C"⟩, 0⟩ ∈ (of alternating).constants ∧
      (∃ c, Signature.Signs alternating ⟨2, ⟨"C"⟩, 0⟩ c) ∧
      (of alternating).position? 2 = some (.immediate, 1) ∧
      (of alternating).position? 1 = some (.block, 0) ∧
      (of alternating).position? 3 = some (.block, 1) ∧ (1 < 3 ↔ 0 < 1) ∧
      (of alternating).position? 4 = none := by
  obtain ⟨-, -, -, own, -, immediate, -, -, ordered, nowhere⟩ := numbers_and_positions alternating
  have member : ⟨2, ⟨"C"⟩, 0⟩ ∈ (of alternating).constants := by decide
  obtain ⟨-, c, signs⟩ := own _ member
  exact ⟨member, ⟨c, signs⟩, (immediate 2 1).mpr ⟨_, c, rfl, signs, rfl⟩, rfl, rfl,
    ordered 1 3 .block 0 1 rfl rfl, (nowhere 4).mpr (Nat.le_refl 4)⟩

end Layout

end Readback
