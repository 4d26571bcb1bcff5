import Readback.Value.Basic

/-!
# Native values in memory

The words of the runtime: an odd word is an immediate, an even one points to the first word of a
block, behind a header with the tag and the number of words. The contents of blocks with a tag from
`Value.noScanTag` on are not values.

A heap lists its blocks by their addresses. Reading a block goes on in the heap without it, so that
reading ends on every heap: a block can be reached many times, but not from within itself.

## Main definitions

* `Word`, `Word.ofImmediate`, `Word.toImmediate` — machine words as immediates
* `HeapBlock`, `Heap` — blocks in memory
* `Heap.block?`, `Heap.without` — the block at an address, and the heap without it
* `Heap.read` — the value that a word stands for
-/

namespace Readback

/-- A machine word. -/
abbrev Word := UInt64

namespace Word

/-- Whether the word is an immediate. -/
def isImmediate (w : Word) : Bool := w &&& 1 == 1

/-- The immediate in an odd word: the signed word without its lowest bit. -/
def toImmediate (w : Word) : Int := w.toInt64.toInt / 2

/-- The odd word of an immediate; the highest bit is lost. -/
def ofImmediate (n : Int) : Word := (Int64.ofInt (2 * n + 1)).toUInt64

/-- The header of a block: tag, colour bits and number of words. -/
def header (tag : UInt8) (color : Word) (size : Word) : Word :=
  (size <<< 10) ||| (color <<< 8) ||| tag.toUInt64

end Word

/-- Why a word could not be read. -/
inductive ReadError
  | nullBlock
  | outsideHeap (address : Word)
  deriving DecidableEq, Repr

/-- A block in memory: its header and the words behind it. -/
structure HeapBlock where
  header : Word
  words : List Word
  deriving DecidableEq, Repr

namespace HeapBlock

/-- The tag, in the low eight bits of the header. -/
def tag (b : HeapBlock) : UInt8 := b.header.toUInt8

/-- The number of words, in the header's bits from the tenth on. -/
def size (b : HeapBlock) : Nat := (b.header >>> 10).toNat

/-- The value of the block at an address, when words are read as given. -/
def value (b : HeapBlock) (address : Word) (read : Word → Except ReadError Value) :
    Except ReadError Value :=
  if b.tag = Value.floatTag then
    match b.words with
    | [] => .error (.outsideHeap address)
    | bits :: _ => .ok (.ofFloat ⟨bits⟩)
  -- the words of such a block are no values, whatever they look like
  else if Value.noScanTag ≤ b.tag then .ok (.block b.tag [])
  else if b.words.length < b.size then .error (.outsideHeap address)
  else ((b.words.take b.size).mapM read).map (.block b.tag)

end HeapBlock

/-- A heap: blocks by the address of their first word. -/
structure Heap where
  blocks : List (Word × HeapBlock)
  deriving Repr

namespace Heap

/-- The block at an address. -/
def block? (h : Heap) (address : Word) : Option HeapBlock :=
  (h.blocks.find? fun entry => entry.1 = address).map Prod.snd

/-- The heap without the block at an address. -/
def without (h : Heap) (address : Word) : Heap where
  blocks := h.blocks.filter fun entry => entry.1 ≠ address

theorem length_without_lt {h : Heap} {address : Word} {b : HeapBlock}
    (found : h.block? address = some b) : (h.without address).blocks.length < h.blocks.length := by
  obtain ⟨entry, found, -⟩ := Option.map_eq_some_iff.mp found
  have atAddress : entry.1 = address := by simpa using List.find?_some found
  refine List.length_filter_lt_length_iff_exists.mpr ⟨entry, List.mem_of_find?_eq_some found, ?_⟩
  simpa using atAddress

/-- The value that a word stands for. -/
def read (h : Heap) (w : Word) : Except ReadError Value :=
  if w.isImmediate then .ok (.immediate w.toImmediate)
  else if w = 0 then .error .nullBlock
  else
    match found : h.block? w with
    | none => .error (.outsideHeap w)
    | some b =>
      have : (h.without w).blocks.length < h.blocks.length := length_without_lt found
      b.value w fun field => (h.without w).read field
  termination_by h.blocks.length

end Heap

end Readback
