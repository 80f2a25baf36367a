-- SUMMARY: Lower case of a text, with the mappings that need more than one character.
import TestDiscovery.Text.Lower.Table

/-!
# Lower case

Full lower case of a text. Two characters need more than a table row: the capital I with a dot becomes two
characters, and the capital sigma has a form of its own at the end of a word.
-/

namespace TestDiscovery.Text

namespace Lower

/-- Whether a code point lies in one of the inclusive ranges. -/
def inRanges (ranges : List (Nat × Nat)) (n : Nat) : Bool :=
  ranges.any fun (first, last) => first ≤ n && n ≤ last

/-- The lower case of a code point beyond ASCII, by the table. -/
def mapPoint (n : Nat) : Nat :=
  match mappings.find? (fun (first, last, step, _) => first ≤ n && n ≤ last && (n - first) % step == 0) with
  | some (_, _, _, shift) => (n + shift).toNat
  | none => n

/-- The lower case of a character that stands alone. -/
def ofChar (c : Char) : List Char :=
  if c.toNat < 128 then [c.toLower]
  else if c = 'İ' then ['i', '\u0307']
  else [Char.ofNat (mapPoint c.toNat)]

/-- Whether the first character that counts is a cased letter. -/
def meetsCased (s : List Char) : Bool :=
  match s.dropWhile fun c => inRanges ignorableRanges c.toNat with
  | [] => false
  | c :: _ => inRanges casedRanges c.toNat

/-- A sigma is final after a cased letter when no cased letter follows. -/
def sigma (before after : List Char) : Char :=
  if meetsCased before && !meetsCased after then 'ς' else 'σ'

/-- The lower case of a text that follows the characters `before`, the nearest of them first. -/
def after (before : List Char) : List Char → List Char
  | [] => []
  | c :: r => (if c = 'Σ' then [sigma before r] else ofChar c) ++ after (c :: before) r

end Lower

/-- The lower case of a text. -/
def toLower (s : List Char) : List Char := Lower.after [] s

end TestDiscovery.Text
