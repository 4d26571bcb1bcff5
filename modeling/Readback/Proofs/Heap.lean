import Readback.Value.Heap
import Readback.Proofs.Except
import Readback.Proofs.RoundTrip
import Mathlib.Logic.Relation

/-!
# What words in memory stand for

The values that words represent, said of the numbers in words and headers and not of how they are
read. The reader answers exactly the represented value; it refuses a word, on a heap without cycles,
exactly when it comes to a null word. Since the classifier gives out no tag of blocks whose contents
are not values, every canonical inhabitant can be read back from where it is stored.

## Main definitions

* `HeapBlock.Headed`, `Heap.PointsTo` — tag and size of a block, and the words that point to it
* `Heap.Represents` — the value that a word represents
* `Heap.Scans`, `Heap.Reaches`, `Heap.Sound` — the words that are read for a word
* `Heap.Simulates` — heaps that look the same from related words
* `Heap.Stores` — how compiled code stores a value

## Main statements

* `Heap.read_eq_ok_iff` — words are read as the values that they represent
* `Heap.Sound.read_cases` — a word on a sound heap is read unless a null word is reached
* `Inhabits.tagged` — the blocks of canonical inhabitants can be told from blocks without values
* `Heap.read_exact` — what is read, when reading fails, and that inhabitants are read back
-/

namespace Readback

/-! ## Words and headers -/

namespace Word

theorem isImmediate_iff (w : Word) : w.isImmediate ↔ w.toNat % 2 = 1 := by
  have low : (w &&& 1).toNat = w.toNat % 2 := by
    rw [UInt64.toNat_and]
    exact Nat.and_one_is_mod _
  rw [isImmediate, beq_iff_eq, ← UInt64.toNat_inj, low]
  rfl

theorem toInt_toInt64 (w : Word) :
    w.toInt64.toInt = w.toNat ∨ w.toInt64.toInt = (w.toNat : Int) - UInt64.size := by
  have signed : w.toInt64.toInt = w.toBitVec.toInt := rfl
  rw [signed, BitVec.toInt_eq_toNat_cond, UInt64.toNat_toBitVec]
  split
  · exact .inl rfl
  · exact .inr rfl

/-- An immediate is the odd signed number of its word without the lowest bit. -/
theorem toInt_eq_iff (w : Word) (n : Int) :
    w.toInt64.toInt = 2 * n + 1 ↔ w.isImmediate ∧ w.toImmediate = n := by
  rw [isImmediate_iff, toImmediate]
  have parity : (UInt64.size : Int) % 2 = 0 := by decide
  rcases toInt_toInt64 w with signed | signed <;> omega

end Word

namespace HeapBlock

variable {b c : HeapBlock} {address : Word} {read : Word → Except ReadError Value} {v : Value}
  {tag tag' : UInt8} {size size' : Nat}

/-- The header of the block holds a tag in its low eight bits, a size from the tenth bit on and some
colour between them. -/
def Headed (b : HeapBlock) (tag : UInt8) (size : Nat) : Prop :=
  ∃ color < 4, b.header.toNat = size * 1024 + color * 256 + tag.toNat

theorem headed_iff (b : HeapBlock) (tag : UInt8) (size : Nat) :
    b.Headed tag size ↔ b.tag = tag ∧ b.size = size := by
  have low : b.tag.toNat = b.header.toNat % 256 := UInt64.toNat_toUInt8 b.header
  have high : b.size = b.header.toNat / 1024 := by
    rw [HeapBlock.size, UInt64.toNat_shiftRight]
    exact Nat.shiftRight_eq_div_pow _ 10
  have bound := tag.toNat_lt
  rw [← UInt8.toNat_inj, low, high]
  constructor
  · rintro ⟨color, few, header⟩
    omega
  · rintro ⟨tagged, sized⟩
    exact ⟨b.header.toNat / 256 % 4, by omega, by omega⟩

theorem headed_self (b : HeapBlock) : b.Headed b.tag b.size :=
  (b.headed_iff _ _).mpr ⟨rfl, rfl⟩

theorem Headed.unique (headed : b.Headed tag size) (headed' : b.Headed tag' size') :
    tag = tag' ∧ size = size' := by
  obtain ⟨rfl, rfl⟩ := (b.headed_iff _ _).mp headed
  exact (b.headed_iff _ _).mp headed'

/-- The words that the block must have are there: one for a float, and those of its size if they
are values. -/
def Whole (b : HeapBlock) : Prop :=
  ∃ tag size, b.Headed tag size ∧ (tag = 253 → b.words ≠ []) ∧
    (tag < 251 → size ≤ b.words.length)

/-- The blocks have the same tag and hold the same, as far as they are read: floats the same first
word, and blocks of values equally many words that are related. -/
def Like (R : Word → Word → Prop) (b c : HeapBlock) : Prop :=
  ∃ tag size size', b.Headed tag size ∧ c.Headed tag size' ∧
    (tag = 253 → c.words[0]? = b.words[0]?) ∧
    (tag < 251 → size' = size ∧ List.Forall₂ R (b.words.take size) (c.words.take size))

theorem like_self {R : Word → Word → Prop} (headed : b.Headed tag size)
    (related : tag < 251 → ∀ word ∈ b.words.take size, R word word) : b.Like R b :=
  ⟨tag, size, size, headed, headed, fun _ => rfl,
    fun low => ⟨rfl, List.forall₂_same.mpr (related low)⟩⟩

theorem value_of_float {bits : Word} (headed : b.Headed 253 size)
    (first : b.words[0]? = some bits) :
    b.value address read = .ok (.block 253 [.immediate bits.toInt64.toInt]) := by
  have tagged : b.tag = Value.floatTag := ((b.headed_iff _ _).mp headed).1
  obtain ⟨rest, words⟩ : ∃ rest, b.words = bits :: rest := by
    cases words : b.words with
    | nil => simp [words] at first
    | cons bits' rest =>
      rw [words] at first
      exact ⟨rest, by rw [Option.some.inj first]⟩
  rw [value, if_pos tagged, words]
  rfl

theorem value_of_unscanned (headed : b.Headed tag size) (high : 251 ≤ tag) (notFloat : tag ≠ 253) :
    b.value address read = .ok (.block tag []) := by
  obtain ⟨rfl, -⟩ := (b.headed_iff _ _).mp headed
  have notFloat : b.tag ≠ Value.floatTag := notFloat
  have high : Value.noScanTag ≤ b.tag := high
  rw [value, if_neg notFloat, if_pos high]

theorem value_of_scanned (headed : b.Headed tag size) (low : tag < 251)
    (whole : size ≤ b.words.length) :
    b.value address read = ((b.words.take size).mapM read).map (.block tag) := by
  obtain ⟨rfl, rfl⟩ := (b.headed_iff _ _).mp headed
  have notFloat : b.tag ≠ Value.floatTag := fun float => absurd low (by rw [float]; decide)
  have scanned : ¬ Value.noScanTag ≤ b.tag := UInt8.not_le.mpr low
  rw [value, if_neg notFloat, if_neg scanned, if_neg (Nat.not_lt.mpr whole)]

/-- A block is read as a float, as a block without values or as one with the values of its words. -/
theorem value_eq_ok (answered : b.value address read = .ok v) :
    (∃ size bits, b.Headed 253 size ∧ b.words[0]? = some bits ∧
        v = .block 253 [.immediate bits.toInt64.toInt]) ∨
      (∃ tag size, b.Headed tag size ∧ 251 ≤ tag ∧ tag ≠ 253 ∧ v = .block tag []) ∨
      ∃ tag size fields, b.Headed tag size ∧ tag < 251 ∧ size ≤ b.words.length ∧
        (b.words.take size).mapM read = .ok fields ∧ v = .block tag fields := by
  have headed := b.headed_self
  unfold value at answered
  split at answered
  next float =>
    rw [float] at headed
    split at answered
    · cases answered
    next bits rest words =>
      refine .inl ⟨b.size, bits, headed, by rw [words]; rfl, ?_⟩
      exact (Except.ok.inj answered).symm
  next notFloat =>
    split at answered
    next high =>
      exact .inr (.inl ⟨b.tag, b.size, headed, high, notFloat, (Except.ok.inj answered).symm⟩)
    next low =>
      split at answered
      · cases answered
      next whole =>
        cases fields : (b.words.take b.size).mapM read with
        | error e =>
          rw [fields] at answered
          cases answered
        | ok vs =>
          rw [fields] at answered
          exact .inr (.inr ⟨b.tag, b.size, vs, headed, UInt8.not_le.mp low, Nat.le_of_not_lt whole,
            fields, (Except.ok.inj answered).symm⟩)

end HeapBlock

namespace Heap

variable {h h' : Heap} {w u : Word} {b c : HeapBlock} {v : Value} {tag : UInt8} {size : Nat}

/-! ## Represented values -/

/-- The word is the address of the block, as no immediate and not the null word is. -/
structure PointsTo (h : Heap) (w : Word) (b : HeapBlock) : Prop where
  even : w.toNat % 2 = 0
  nonnull : w ≠ 0
  found : h.block? w = some b

theorem PointsTo.unique (points : h.PointsTo w b) (points' : h.PointsTo w c) : b = c :=
  Option.some.inj (points.found.symm.trans points'.found)

theorem PointsTo.not_immediate (points : h.PointsTo w b) : ¬ w.isImmediate := by
  have even := points.even
  rw [Word.isImmediate_iff]
  omega

theorem pointsTo_of_found (pointer : ¬ w.isImmediate) (nonnull : w ≠ 0)
    (found : h.block? w = some b) : h.PointsTo w b := by
  refine ⟨?_, nonnull, found⟩
  rw [Word.isImmediate_iff] at pointer
  omega

/-- The value that a word represents. -/
inductive Represents (h : Heap) : Word → Value → Prop
  | immediate {w : Word} {n : Int} (odd : w.toInt64.toInt = 2 * n + 1) :
      Represents h w (.immediate n)
  | float {w bits : Word} {b : HeapBlock} {size : Nat} (points : h.PointsTo w b)
      (headed : b.Headed 253 size) (first : b.words[0]? = some bits) :
      Represents h w (.block 253 [.immediate bits.toInt64.toInt])
  | unscanned {w : Word} {b : HeapBlock} {tag : UInt8} {size : Nat} (points : h.PointsTo w b)
      (headed : b.Headed tag size) (high : 251 ≤ tag) (notFloat : tag ≠ 253) :
      Represents h w (.block tag [])
  | block {w : Word} {b : HeapBlock} {tag : UInt8} {fields : List Value} (points : h.PointsTo w b)
      (headed : b.Headed tag fields.length) (low : tag < 251)
      (whole : fields.length ≤ b.words.length)
      (represents : ∀ (i : Nat) (word : Word) (field : Value), b.words[i]? = some word →
        fields[i]? = some field → Represents h word field) :
      Represents h w (.block tag fields)

/-- Lists are related element by element when there are elements enough. -/
theorem forall₂_take_iff {α β : Type} {R : α → β → Prop} {xs : List α} {ys : List β} :
    List.Forall₂ R (xs.take ys.length) ys ↔ ys.length ≤ xs.length ∧
      ∀ (i : Nat) (x : α) (y : β), xs[i]? = some x → ys[i]? = some y → R x y := by
  have count : (xs.take ys.length).length = ys.length ↔ ys.length ≤ xs.length := by
    rw [List.length_take]
    omega
  rw [List.forall₂_iff_get, count]
  refine and_congr_right fun enough => ⟨fun each i x y atX atY => ?_, fun each i inX inY => ?_⟩
  · obtain ⟨inX, rfl⟩ := List.getElem?_eq_some_iff.mp atX
    obtain ⟨inY, rfl⟩ := List.getElem?_eq_some_iff.mp atY
    have related := each i (by rw [List.length_take]; omega) inY
    rwa [List.get_eq_getElem, List.getElem_take] at related
  · rw [List.get_eq_getElem, List.getElem_take]
    exact each i _ _ (List.getElem?_eq_getElem _) (List.getElem?_eq_getElem inY)

/-- The fields of a block are represented by its words, as many as the header says. -/
theorem Represents.of_fields {fields : List Value} (points : h.PointsTo w b)
    (headed : b.Headed tag size) (low : tag < 251) (whole : size ≤ b.words.length)
    (represents : List.Forall₂ h.Represents (b.words.take size) fields) :
    h.Represents w (.block tag fields) := by
  have count : size = fields.length := by
    rw [← represents.length_eq, List.length_take_of_le whole]
  subst count
  exact .block points headed low whole (forall₂_take_iff.mp represents).2

/-! ## Heaps that look the same -/

/-- Related words look the same in the two heaps: they are the same immediate, or they point to
blocks that hold the same. Addresses, colours and what is not read may differ. -/
structure Simulates (h h' : Heap) (R : Word → Word → Prop) : Prop where
  immediate : ∀ ⦃w w' : Word⦄, R w w' → w.toNat % 2 = 1 → w' = w
  pointer : ∀ ⦃w w' : Word⦄ ⦃b : HeapBlock⦄, R w w' → h.PointsTo w b →
    ∃ c, h'.PointsTo w' c ∧ b.Like R c

/-- Related words represent the same values. -/
theorem Simulates.represents {R : Word → Word → Prop} {w' : Word} (simulates : h.Simulates h' R)
    (related : R w w') (represents : h.Represents w v) : h'.Represents w' v := by
  induction represents generalizing w' with
  | @immediate w n odd =>
    have isOdd := (Word.isImmediate_iff w).mp ((Word.toInt_eq_iff w n).mp odd).1
    rw [simulates.immediate related isOdd]
    exact .immediate odd
  | float points headed first =>
    obtain ⟨c, points', tag, size, size', same, headed', float, -⟩ :=
      simulates.pointer related points
    obtain ⟨rfl, rfl⟩ := same.unique headed
    exact .float points' headed' (by rw [float rfl, first])
  | unscanned points headed high notFloat =>
    obtain ⟨c, points', tag, size, size', same, headed', -⟩ := simulates.pointer related points
    obtain ⟨rfl, rfl⟩ := same.unique headed
    exact .unscanned points' headed' high notFloat
  | @block w b tag fields points headed low whole represents ih =>
    obtain ⟨c, points', tag', size, size', same, headed', -, scanned⟩ :=
      simulates.pointer related points
    obtain ⟨rfl, rfl⟩ := same.unique headed
    obtain ⟨rfl, words⟩ := scanned low
    have whole' : fields.length ≤ c.words.length := by
      have count := words.length_eq
      simp only [List.length_take] at count
      omega
    refine .block points' headed' low whole' ?_
    intro i word' field atWord' atField
    have early : i < fields.length := (List.getElem?_eq_some_iff.mp atField).1
    have atWord : b.words[i]? = some b.words[i] := List.getElem?_eq_getElem (by omega)
    refine ih i _ field atWord atField ?_
    obtain ⟨inWords', rfl⟩ := List.getElem?_eq_some_iff.mp atWord'
    have related := words.get (i := i) (by rw [List.length_take]; omega)
      (by rw [List.length_take]; omega)
    rwa [List.get_eq_getElem, List.get_eq_getElem, List.getElem_take, List.getElem_take] at related

/-! ## Words that are read -/

/-- The block at the first word has the second one among the fields that are values. -/
def Scans (h : Heap) (w u : Word) : Prop :=
  ∃ b tag size, h.PointsTo w b ∧ b.Headed tag size ∧ tag < 251 ∧ u ∈ b.words.take size

/-- What is scanned is known from the block. -/
theorem Scans.of_pointsTo (scans : h.Scans w u) (points : h.PointsTo w b)
    (headed : b.Headed tag size) : tag < 251 ∧ u ∈ b.words.take size := by
  obtain ⟨c, tag', size', points', headed', low, member⟩ := scans
  obtain rfl := points.unique points'
  obtain ⟨rfl, rfl⟩ := headed.unique headed'
  exact ⟨low, member⟩

/-- The second word is read when the first one is. -/
abbrev Reaches (h : Heap) : Word → Word → Prop := Relation.ReflTransGen h.Scans

/-- Every pointer that is reached leads to a block, and none of them leads back to itself. -/
structure Sound (h : Heap) (w : Word) : Prop where
  leads : ∀ u, h.Reaches w u → u.toNat % 2 = 0 → u ≠ 0 → ∃ b, h.PointsTo u b ∧ b.Whole
  acyclic : ∀ u, h.Reaches w u → ¬ Relation.TransGen h.Scans u u

theorem block?_without (h : Heap) (w u : Word) :
    (h.without w).block? u = if u = w then none else h.block? u := by
  unfold block? without
  rw [List.find?_filter]
  split
  next same =>
    subst same
    have nowhere : ∀ entry ∈ h.blocks, ¬ (entry.1 ≠ u ∧ entry.1 = u) := by
      rintro entry - ⟨other, here⟩
      exact other here
    rw [List.find?_eq_none.mpr (by simp), Option.map_none]
  next other =>
    congr 2
    funext entry
    by_cases here : entry.1 = u <;> simp [here, other]

theorem pointsTo_without : (h.without w).PointsTo u b ↔ u ≠ w ∧ h.PointsTo u b := by
  constructor
  · rintro ⟨even, nonnull, found⟩
    rw [block?_without] at found
    by_cases same : u = w
    · simp [same] at found
    · rw [if_neg same] at found
      exact ⟨same, even, nonnull, found⟩
  · rintro ⟨other, even, nonnull, found⟩
    exact ⟨even, nonnull, by rw [block?_without, if_neg other, found]⟩

theorem scans_without {x : Word} : (h.without w).Scans u x ↔ u ≠ w ∧ h.Scans u x := by
  simp only [Scans, pointsTo_without, and_assoc, exists_and_left]

theorem scans_without_le (h : Heap) (w : Word) : (h.without w).Scans ≤ h.Scans :=
  fun _ _ scans => (scans_without.mp scans).2

/-- What is reached without coming to a word is reached without its block. -/
theorem reaches_without {x : Word} (avoids : ¬ h.Reaches u w) :
    (h.without w).Reaches u x ↔ h.Reaches u x := by
  constructor
  · exact Relation.ReflTransGen.mono (h.scans_without_le w) u x
  · intro reaches
    induction reaches with
    | refl => exact .refl
    | @tail y z reached scans ih =>
      have other : y ≠ w := by
        rintro rfl
        exact avoids reached
      exact ih.tail (scans_without.mpr ⟨other, scans⟩)

theorem simulates_without (h : Heap) (w : Word) : (h.without w).Simulates h Eq where
  immediate := fun _ _ same _ => same.symm
  pointer := by
    rintro u _ b rfl points
    exact ⟨b, (pointsTo_without.mp points).2, HeapBlock.like_self b.headed_self fun _ _ _ => rfl⟩

/-- Removing a block changes nothing for words that do not come to it. -/
theorem simulates_avoiding (h : Heap) (w : Word) :
    h.Simulates (h.without w) fun u u' => u' = u ∧ ¬ h.Reaches u w where
  immediate := fun _ _ related _ => related.1
  pointer := by
    rintro _ u b ⟨rfl, avoids⟩ points
    have other : u ≠ w := by
      rintro rfl
      exact avoids .refl
    refine ⟨b, pointsTo_without.mpr ⟨other, points⟩, HeapBlock.like_self b.headed_self ?_⟩
    intro low word member
    refine ⟨rfl, fun reaches => avoids (.head ?_ reaches)⟩
    exact ⟨b, b.tag, b.size, points, b.headed_self, low, member⟩

/-! ## Reading is exact -/

theorem read_of_immediate (immediate : w.isImmediate) :
    h.read w = .ok (.immediate w.toImmediate) := by
  rw [read, if_pos immediate]

theorem read_zero (h : Heap) : h.read 0 = .error .nullBlock := by
  have even : ¬ Word.isImmediate 0 := by decide
  rw [read, if_neg even, if_pos rfl]

theorem read_of_missing (pointer : ¬ w.isImmediate) (nonnull : w ≠ 0)
    (missing : h.block? w = none) : h.read w = .error (.outsideHeap w) := by
  rw [read, if_neg pointer, if_neg nonnull]
  split
  next => rfl
  next b found => cases missing.symm.trans found

theorem PointsTo.read_eq (points : h.PointsTo w b) :
    h.read w = b.value w (h.without w).read := by
  rw [read, if_neg points.not_immediate, if_neg points.nonnull]
  split
  next missing => cases missing.symm.trans points.found
  next c found =>
    obtain rfl := Option.some.inj (found.symm.trans points.found)
    rfl

/-- What is read is represented. -/
theorem represents_of_read (answered : h.read w = .ok v) : h.Represents w v := by
  induction h, w using Heap.read.induct generalizing v with
  | case1 h w immediate =>
    rw [read_of_immediate immediate] at answered
    obtain rfl := Except.ok.inj answered
    exact .immediate ((Word.toInt_eq_iff w _).mpr ⟨immediate, rfl⟩)
  | case2 h pointer => cases h.read_zero.symm.trans answered
  | case3 h w pointer nonnull missing =>
    cases (read_of_missing pointer nonnull missing).symm.trans answered
  | case4 h w pointer nonnull b found fewer ih =>
    have points := pointsTo_of_found pointer nonnull found
    rw [points.read_eq] at answered
    rcases HeapBlock.value_eq_ok answered with ⟨size, bits, headed, first, rfl⟩ |
      ⟨tag, size, headed, high, notFloat, rfl⟩ | ⟨tag, size, fields, headed, low, whole, read, rfl⟩
    · exact .float points headed first
    · exact .unscanned points headed high notFloat
    · refine .of_fields points headed low whole ?_
      refine (mapM_eq_ok.mp read).imp fun word field answered => ?_
      exact (h.simulates_without w).represents rfl (ih word answered)

/-- No word that represents a value leads back to itself, since values are finite. -/
theorem Represents.acyclic (represents : h.Represents w v) : ¬ Relation.TransGen h.Scans w w := by
  induction represents with
  | @immediate w n odd =>
    intro cycle
    obtain ⟨u, ⟨b, tag, size, points, -⟩, -⟩ := Relation.TransGen.head'_iff.mp cycle
    exact points.not_immediate ((Word.toInt_eq_iff w n).mp odd).1
  | float points headed first =>
    intro cycle
    obtain ⟨u, scans, -⟩ := Relation.TransGen.head'_iff.mp cycle
    exact absurd (scans.of_pointsTo points headed).1 (by decide)
  | unscanned points headed high notFloat =>
    intro cycle
    obtain ⟨u, scans, -⟩ := Relation.TransGen.head'_iff.mp cycle
    exact absurd (scans.of_pointsTo points headed).1 (UInt8.not_lt.mpr high)
  | block points headed low whole represents ih =>
    intro cycle
    obtain ⟨u, scans, back⟩ := Relation.TransGen.head'_iff.mp cycle
    have member := (scans.of_pointsTo points headed).2
    -- the cycle goes through a field, which then leads back to itself as well
    obtain ⟨i, atTaken⟩ := List.getElem?_of_mem member
    have early := (List.getElem?_eq_some_iff.mp atTaken).1
    rw [List.length_take] at early
    rw [List.getElem?_take_of_lt (by omega)] at atTaken
    refine ih i u _ atTaken (List.getElem?_eq_getElem (by omega)) ?_
    exact .tail' back scans

/-- What is represented is read. -/
theorem Represents.read_eq (represents : h.Represents w v) : h.read w = .ok v := by
  -- the induction is on the heap, from which every block that is read is taken out
  induction count : h.blocks.length using Nat.strongRecOn generalizing h w v with
  | ind n ih =>
    subst count
    have acyclic := represents.acyclic
    cases represents with
    | immediate odd =>
      obtain ⟨immediate, rfl⟩ := (Word.toInt_eq_iff w _).mp odd
      exact read_of_immediate immediate
    | float points headed first =>
      rw [points.read_eq, HeapBlock.value_of_float headed first]
    | unscanned points headed high notFloat =>
      rw [points.read_eq, HeapBlock.value_of_unscanned headed high notFloat]
    | @block _ b tag fields points headed low whole represents =>
      rw [points.read_eq, HeapBlock.value_of_scanned headed low whole]
      have each : List.Forall₂ (fun word field => (h.without w).read word = .ok field)
          (b.words.take fields.length) fields := by
        refine forall₂_take_iff.mpr ⟨whole, fun i word field atWord atField => ?_⟩
        refine ih _ (length_without_lt points.found) ?_ rfl
        refine (h.simulates_avoiding w).represents ⟨rfl, fun back => acyclic ?_⟩
          (represents i word field atWord atField)
        have early := (List.getElem?_eq_some_iff.mp atField).1
        have member : word ∈ b.words.take fields.length := by
          refine List.mem_of_getElem? (i := i) ?_
          rw [List.getElem?_take_of_lt early, atWord]
        exact .head' ⟨b, tag, fields.length, points, headed, low, member⟩ back
      rw [mapM_eq_ok.mpr each]
      rfl

/-- Words are read as the values that they represent. -/
theorem read_eq_ok_iff : h.read w = .ok v ↔ h.Represents w v :=
  ⟨represents_of_read, Represents.read_eq⟩

/-! ## Reading fails on null words only -/

theorem PointsTo.not_reaches_zero (points : h.PointsTo w b) (headed : b.Headed tag size)
    (high : ¬ tag < 251) : ¬ h.Reaches w 0 := by
  intro reaches
  rcases reaches.cases_head with null | ⟨u, ⟨c, tag', size', points', headed', low, -⟩, -⟩
  · exact points.nonnull null
  · obtain rfl := points.unique points'
    obtain ⟨rfl, -⟩ := headed.unique headed'
    exact high low

theorem Sound.not_reaches_back (sound : h.Sound w) (scans : h.Scans w u) : ¬ h.Reaches u w :=
  fun back => sound.acyclic w .refl (.head' scans back)

/-- What is read in a block is sound without the block. -/
theorem Sound.without (sound : h.Sound w) (scans : h.Scans w u) : (h.without w).Sound u := by
  have avoids := sound.not_reaches_back scans
  refine ⟨fun x reaches even nonnull => ?_, fun x reaches cycle => ?_⟩
  · rw [reaches_without avoids] at reaches
    obtain ⟨b, points, whole⟩ := sound.leads x (.head scans reaches) even nonnull
    have other : x ≠ w := by
      rintro rfl
      exact avoids reaches
    exact ⟨b, pointsTo_without.mpr ⟨other, points⟩, whole⟩
  · rw [reaches_without avoids] at reaches
    exact sound.acyclic x (.head scans reaches)
      (Relation.TransGen.mono (h.scans_without_le w) x x cycle)

/-- A word on a sound heap is read unless a null word is reached, which then is the error. -/
theorem Sound.read_cases (sound : h.Sound w) :
    (∃ v, h.read w = .ok v) ∧ ¬ h.Reaches w 0 ∨ h.read w = .error .nullBlock ∧ h.Reaches w 0 := by
  -- the cases are those of the reader: immediate, null word, missing block, block
  induction h, w using Heap.read.induct with
  | case1 h w immediate =>
    refine .inl ⟨⟨_, read_of_immediate immediate⟩, fun reaches => ?_⟩
    rcases reaches.cases_head with rfl | ⟨u, ⟨b, tag, size, points, -⟩, -⟩
    · exact absurd immediate (by decide)
    · exact points.not_immediate immediate
  | case2 h pointer => exact .inr ⟨h.read_zero, .refl⟩
  | case3 h w pointer nonnull missing =>
    have even : w.toNat % 2 = 0 := by
      rw [Word.isImmediate_iff] at pointer
      omega
    obtain ⟨b, points, -⟩ := sound.leads w .refl even nonnull
    cases missing.symm.trans points.found
  | case4 h w pointer nonnull b found fewer ih =>
    have points := pointsTo_of_found pointer nonnull found
    obtain ⟨c, points', tag, size, headed, float, scanned⟩ :=
      sound.leads w .refl points.even nonnull
    obtain rfl := points.unique points'
    rw [points.read_eq]
    by_cases low : tag < 251
    · have scans : ∀ u ∈ b.words.take size, h.Scans w u := fun u member =>
        ⟨b, tag, size, points, headed, low, member⟩
      have each : ∀ u ∈ b.words.take size, (∃ v, (h.without w).read u = .ok v) ∧ ¬ h.Reaches u 0 ∨
          (h.without w).read u = .error .nullBlock ∧ h.Reaches u 0 := by
        intro u member
        have cases := ih u (sound.without (scans u member))
        rwa [reaches_without (sound.not_reaches_back (scans u member))] at cases
      rw [HeapBlock.value_of_scanned headed low (scanned low)]
      rcases mapM_cases fun u member => (each u member).imp And.left And.left with
        ⟨⟨fields, read⟩, all⟩ | ⟨failed, u, member, failedAt⟩
      · refine .inl ⟨⟨_, by rw [read]; rfl⟩, fun reaches => ?_⟩
        -- the null word would be reached from a field, which is read
        rcases reaches.cases_head with
          null | ⟨u, ⟨c, tag', size', points', headed', -, member⟩, rest⟩
        · exact nonnull null
        · obtain rfl := points.unique points'
          obtain ⟨rfl, rfl⟩ := headed.unique headed'
          rcases each u member with ⟨-, avoids⟩ | ⟨failedAt, -⟩
          · exact avoids rest
          · obtain ⟨v, readAt⟩ := all u member
            cases failedAt.symm.trans readAt
      · refine .inr ⟨by rw [failed]; rfl, ?_⟩
        rcases each u member with ⟨⟨v, readAt⟩, -⟩ | ⟨-, reaches⟩
        · cases failedAt.symm.trans readAt
        · exact .head (scans u member) reaches
    · refine .inl ⟨?_, points.not_reaches_zero headed low⟩
      by_cases isFloat : tag = 253
      · subst isFloat
        have some : b.words[0]? = some ((b.words.head (float rfl))) := by
          rw [← List.head?_eq_getElem?, List.head?_eq_some_head]
        exact ⟨_, HeapBlock.value_of_float headed some⟩
      · exact ⟨_, HeapBlock.value_of_unscanned headed (UInt8.not_lt.mp low) isFloat⟩

end Heap

/-! ## Stored inhabitants -/

/-- Every block in the value is a boxed float or has a tag of blocks that hold values. -/
inductive Value.Tagged : Value → Prop
  | immediate (n : Int) : Value.Tagged (.immediate n)
  | float (x : Float64) : Value.Tagged (.ofFloat x)
  | block {tag : UInt8} {fields : List Value} (low : tag < 251)
      (tagged : ∀ field ∈ fields, Value.Tagged field) : Value.Tagged (.block tag fields)

/-- A supported layout gives out the tags of blocks that hold values, and no others. -/
theorem Layout.isSupported_iff (l : Layout) :
    l.isSupported ↔ ∀ n s, l.blocks[n]? = some s → n < 251 := by
  rw [isSupported, decide_eq_true_iff]
  constructor
  · intro enough n s numbered
    exact Nat.lt_of_lt_of_le (List.getElem?_eq_some_iff.mp numbered).1 enough
  · intro small
    by_contra tooMany
    have more : 251 < l.blocks.length := Nat.lt_of_not_le tooMany
    exact absurd (small 251 _ (List.getElem?_eq_getElem more)) (by decide)

section

variable {env : Environment} {fuel : Nat}

mutual

/-- The native value of a canonical inhabitant has only tags that the reader takes for values. -/
theorem Inhabits.tagged {type : Term} : ∀ {r : Readable} {t : Term} {v : Value},
    Inhabits env fuel r t → Readable.ofType env fuel type = .ok r → t.encode? env = some v →
      v.Tagged
  | .primitive t, _, v, .int n kind, _, encoded => by
    obtain rfl : .immediate n = v := Option.some.inj encoded
    exact .immediate n
  | .primitive t, _, v, .float x kind, _, encoded => by
    obtain rfl : .ofFloat x = v := Option.some.inj encoded
    exact .float x
  | _, _, v, @Inhabits.constructor _ _ t index c fields declared inhabitants, classified,
      encoded => by
    obtain ⟨d, declares⟩ := Readable.declares_of_ofType classified
    rw [declares.constructor?_eq] at declared
    rw [Term.encode?_constructor index t.levels fields declares.found declares.params_length,
      Option.bind_eq_some_iff] at encoded
    obtain ⟨values, encodedFields, encoded⟩ := encoded
    by_cases noFields : c.arity = 0
    · obtain ⟨n, numbered⟩ := Layout.exists_constant declared noFields
      rw [InductiveDecl.encode?_constant numbered] at encoded
      obtain rfl := Option.some.inj encoded
      exact .immediate n
    · obtain ⟨n, numbered⟩ := Layout.exists_block declared noFields
      obtain ⟨small, tag⟩ := declares.tag_toNat numbered
      rw [InductiveDecl.encode?_block numbered small] at encoded
      obtain rfl := Option.some.inj encoded
      refine .block ?_ (inhabitants.tagged encodedFields)
      rw [UInt8.lt_iff_toNat_lt, tag]
      exact (Layout.isSupported_iff _).mp declares.supported n _ numbered

/-- So have the native values of canonical inhabitants of fields. -/
theorem FieldsInhabit.tagged : ∀ {context types fields : List Term} {values : List Value},
    FieldsInhabit env fuel context types fields → encodeFields? env 0 fields = some values →
      ∀ v ∈ values, v.Tagged
  | _, _, _, values, .nil, encoded => by
    obtain rfl : [] = values := Option.some.inj encoded
    simp
  | _, _, _, values, .cons classified inhabits rest, encoded => by
    rw [encodeFields?, Option.bind_eq_some_iff] at encoded
    obtain ⟨v, encodedField, encoded⟩ := encoded
    obtain ⟨others, encodedRest, rfl⟩ := Option.map_eq_some_iff.mp encoded
    have first := inhabits.tagged classified encodedField
    exact List.forall_mem_cons.mpr ⟨first, rest.tagged encodedRest⟩

end

end

namespace Heap

variable {h : Heap} {w : Word} {v : Value}

/-- How compiled code stores a value: an immediate in an odd word, a float in a box, and any other
block as the words of its fields, behind a header with its tag, whatever the tag is. -/
inductive Stores (h : Heap) : Word → Value → Prop
  | immediate {w : Word} {n : Int} (odd : w.toInt64.toInt = 2 * n + 1) : Stores h w (.immediate n)
  | float {w : Word} {b : HeapBlock} {size : Nat} (x : Float64) (points : h.PointsTo w b)
      (headed : b.Headed 253 size) (first : b.words[0]? = some x.bits) : Stores h w (.ofFloat x)
  | block {w : Word} {b : HeapBlock} {tag : UInt8} {fields : List Value} (notFloat : tag ≠ 253)
      (points : h.PointsTo w b) (headed : b.Headed tag fields.length)
      (whole : fields.length ≤ b.words.length)
      (stores : ∀ (i : Nat) (word : Word) (field : Value), b.words[i]? = some word →
        fields[i]? = some field → Stores h word field) :
      Stores h w (.block tag fields)

/-- A word represents the value that it stores when the tags of the value are those of values. -/
theorem Stores.represents (stores : h.Stores w v) (tagged : v.Tagged) : h.Represents w v := by
  induction stores with
  | immediate odd => exact .immediate odd
  | float x points headed first => exact .float points headed first
  | block notFloat points headed whole stores ih =>
    cases tagged with
    | float x => exact absurd rfl notFloat
    | block low tagged =>
      refine .block points headed low whole fun i word field atWord atField => ?_
      exact ih i word field atWord atField (tagged field (List.mem_of_getElem? atField))

/-- Reading is exact. A word is read as the value that it represents, and so alike on all heaps that
look the same from it. If its pointers lead to blocks and not in a circle, then it is refused only
for a null word, and whenever one is read. A word that stores a canonical inhabitant of a readable
type is read as the native value of the inhabitant and decodes to it. -/
theorem read_exact (h : Heap) (w : Word) :
    (∀ v, h.read w = .ok v ↔ h.Represents w v) ∧
    (∀ h' R w' v, h.Simulates h' R → R w w' → h.read w = .ok v → h'.read w' = .ok v) ∧
    (h.Sound w → ((∃ e, h.read w = .error e) ↔ h.Reaches w 0) ∧
      ∀ e, h.read w = .error e → e = .nullBlock) ∧
    ∀ env fuel type r t, Readable.ofType env fuel type = .ok r → Inhabits env fuel r t →
      ∃ v, t.encode? env = some v ∧
        (h.Stores w v → h.read w = .ok v ∧ r.decode env fuel v = .ok t) := by
  refine ⟨fun v => read_eq_ok_iff, ?_, ?_, ?_⟩
  · intro h' R w' v simulates related read
    exact (simulates.represents related (represents_of_read read)).read_eq
  · intro sound
    rcases sound.read_cases with ⟨⟨v, read⟩, avoids⟩ | ⟨failed, reaches⟩
    · simp [read, avoids]
    · simp [failed, reaches]
  · intro env fuel type r t classified inhabits
    obtain ⟨v, encoded, decoded⟩ := inhabits.exists_decode_eq classified
    refine ⟨v, encoded, fun stores => ⟨?_, decoded⟩⟩
    exact (stores.represents (inhabits.tagged classified encoded)).read_eq

/-- The number two in memory, as two blocks in front of an immediate. -/
def two : Heap where
  blocks := [(16, ⟨Word.header 0 0 1, [32]⟩), (32, ⟨Word.header 0 3 1, [1]⟩)]

theorem two_stores : two.Stores 16 (.block 0 [.block 0 [.immediate 0]]) := by
  have outer : two.PointsTo 16 ⟨Word.header 0 0 1, [32]⟩ := ⟨by decide, by decide, rfl⟩
  have inner : two.PointsTo 32 ⟨Word.header 0 3 1, [1]⟩ := ⟨by decide, by decide, rfl⟩
  have zero : two.Stores 1 (.immediate 0) := .immediate (by decide)
  have one : two.Stores 32 (.block 0 [.immediate 0]) :=
    .block (by decide) inner ⟨3, by decide, by decide⟩ (by decide)
      (forall₂_take_iff.mp (.cons zero .nil)).2
  exact .block (by decide) outer ⟨0, by decide, by decide⟩ (by decide)
    (forall₂_take_iff.mp (.cons one .nil)).2

/-- The number is read back from there. -/
theorem read_exact_two :
    two.Stores 16 (.block 0 [.block 0 [.immediate 0]]) ∧
      two.read 16 = .ok (.block 0 [.block 0 [.immediate 0]]) ∧
      (Readable.inductiveType Prelude.natType).decode Prelude.environment defaultFuel
        (.block 0 [.block 0 [.immediate 0]]) = .ok (Prelude.nat 2) := by
  obtain ⟨-, -, -, inhabitants⟩ := two.read_exact 16
  obtain ⟨v, encoded, reads⟩ := inhabitants Prelude.environment defaultFuel
    (Prelude.indTerm Prelude.natName) (.inductiveType Prelude.natType) (Prelude.nat 2) rfl
    (Prelude.inhabits_nat 2)
  obtain rfl : .block 0 [.block 0 [.immediate 0]] = v := Option.some.inj encoded
  exact ⟨two_stores, reads two_stores⟩

end Heap

end Readback
