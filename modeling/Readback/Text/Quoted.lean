import Readback.Text.Unprintable

/-!
# Quoted text

Text between double quotes, as diagnostics print it. A quote and a backslash follow a backslash,
tab, newline, carriage return and the null character have letters, any other character without a
glyph is written by number, and every other character stands for itself.

## Main definitions

* `Text.escapeChar` — how one character is written
* `Text.quoted` — a whole text in quotes
-/

namespace Readback.Text

/-- The lower-case hexadecimal digits of a number, without leading zeros. -/
def hexDigits (n : Nat) : List Char := Nat.toDigits 16 n

/-- How one character is written between quotes. -/
def escapeChar (c : Char) : List Char :=
  if c = '"' || c = '\\' then ['\\', c]
  else if c = '\t' then ['\\', 't']
  else if c = '\r' then ['\\', 'r']
  else if c = '\n' then ['\\', 'n']
  else if c = '\x00' then ['\\', '0']
  else if isUnprintable c then ['\\', 'u', '\x7b'] ++ hexDigits c.toNat ++ ['\x7d']
  else [c]

/-- The text between double quotes, every character escaped where it has to be. -/
def quoted (s : String) : String :=
  String.ofList ('"' :: s.toList.flatMap escapeChar ++ ['"'])

end Readback.Text
