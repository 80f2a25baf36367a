-- SUMMARY: Texts and byte strings in quotes, for messages and for the text of nested values.
import TestDiscovery.Text.Lower
import TestDiscovery.Text.Quoted.Table

/-!
# Quoted text

A text is shown between single quotes, or between double quotes if it holds a single quote and no double
one. A backslash and the quote in use are escaped, and so is each character without a visible form: line
break, carriage return and tab by a letter, the others by their code.
-/

namespace TestDiscovery.Text

/-- The last `width` hexadecimal digits of a number, in small letters. -/
def hexDigits : Nat → Nat → List Char
  | 0, _ => []
  | width + 1, n => hexDigits width (n / 16) ++ [Nat.digitChar (n % 16)]

/-- The quote that needs the fewest escapes: single, unless only single ones occur. -/
def quoteFor (s : List Char) : Char :=
  if s.contains '\'' && !s.contains '"' then '"' else '\''

/-- One character between quotes of the kind `q`. -/
def quotedChar (q c : Char) : List Char :=
  if c = q || c = '\\' then ['\\', c]
  else if c = '\n' then ['\\', 'n']
  else if c = '\r' then ['\\', 'r']
  else if c = '\t' then ['\\', 't']
  else if Lower.inRanges Quoted.hiddenRanges c.toNat then
    if c.toNat < 0x100 then '\\' :: 'x' :: hexDigits 2 c.toNat
    else if c.toNat < 0x10000 then '\\' :: 'u' :: hexDigits 4 c.toNat
    else '\\' :: 'U' :: hexDigits 8 c.toNat
  else [c]

/-- A text in quotes. -/
def quoted (s : List Char) : List Char :=
  let q := quoteFor s
  q :: s.flatMap (quotedChar q) ++ [q]

/-- One byte between quotes of the kind `q`; bytes beyond ASCII are shown by their code. -/
def quotedByte (q : Char) (b : UInt8) : List Char :=
  if 0x7F ≤ b.toNat then '\\' :: 'x' :: hexDigits 2 b.toNat else quotedChar q (Char.ofNat b.toNat)

/-- A byte string in quotes, marked by a `b`. -/
def quotedBytes (bytes : List UInt8) : List Char :=
  let q := quoteFor (bytes.map fun b => Char.ofNat b.toNat)
  'b' :: q :: bytes.flatMap (quotedByte q) ++ [q]

end TestDiscovery.Text
