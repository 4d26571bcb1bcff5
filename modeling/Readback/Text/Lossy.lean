/-!
# Reading bytes as UTF-8, with losses

Bytes that are not UTF-8 are still read: every longest piece that begins a character but does not
finish one, and every byte that begins none, becomes one replacement character `U+FFFD`.

## Main definitions

* `Text.Lead` — what the first byte of a character promises
* `Text.decodeLossy` — the characters of a list of bytes
-/

namespace Readback.Text

/-- The character that stands for bytes that cannot be read. -/
def replacementChar : Char := '\ufffd'

/-- What the first byte of a character promises: the bits it holds itself, how many bytes follow,
and the range of the first of them. -/
structure Lead where
  bits : Nat
  following : Nat
  low : UInt8 := 0x80
  high : UInt8 := 0xbf
  deriving Repr

/-- Reads a first byte. The narrower ranges of the second byte leave out overlong forms, surrogates
and numbers beyond the last character. -/
def Lead.ofByte? (b : UInt8) : Option Lead :=
  if b < 0x80 then some { bits := b.toNat, following := 0 }
  else if b < 0xc2 then none
  else if b < 0xe0 then some { bits := b.toNat - 0xc0, following := 1 }
  else if b = 0xe0 then some { bits := 0, following := 2, low := 0xa0 }
  else if b = 0xed then some { bits := 0xd, following := 2, high := 0x9f }
  else if b < 0xf0 then some { bits := b.toNat - 0xe0, following := 2 }
  else if b = 0xf0 then some { bits := 0, following := 3, low := 0x90 }
  else if b = 0xf4 then some { bits := 4, following := 3, high := 0x8f }
  else if b < 0xf4 then some { bits := b.toNat - 0xf0, following := 3 }
  else none

/-- Continues a character of which `value` has been read and `following` bytes are due, the next
one between `low` and `high`. Answers the character, or the replacement when a byte does not fit,
and how many of the bytes were used up. -/
def finishChar (value : Nat) (low high : UInt8) : Nat → List UInt8 → Char × Nat
  | 0, _ => (Char.ofNat value, 0)
  | _ + 1, [] => (replacementChar, 0)
  | due + 1, b :: rest =>
    if low ≤ b && b ≤ high then
      let (c, used) := finishChar (value * 64 + (b.toNat - 0x80)) 0x80 0xbf due rest
      (c, used + 1)
    -- a byte that does not fit is read again as a first byte
    else (replacementChar, 0)

/-- The characters of the bytes, `skip` of them having been used up already. -/
def decodeFrom : Nat → List UInt8 → List Char
  | _, [] => []
  | skip + 1, _ :: rest => decodeFrom skip rest
  | 0, b :: rest =>
    match Lead.ofByte? b with
    | none => replacementChar :: decodeFrom 0 rest
    | some lead =>
      let (c, used) := finishChar lead.bits lead.low lead.high lead.following rest
      c :: decodeFrom used rest

/-- The text of the bytes, with `U+FFFD` for what is not UTF-8. -/
def decodeLossy (bytes : List UInt8) : String :=
  String.ofList (decodeFrom 0 bytes)

end Readback.Text
