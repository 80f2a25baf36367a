-- SUMMARY: Words of the language, matched at the front of a text in any letter case.
/-!
# Keywords

A keyword is written in small letters. Each of its letters also stands for its capital, and three letters
stand for further characters whose case mappings meet theirs: the long s, the Kelvin sign, and the dotted
capital and the dotless small I.
-/

namespace TestDiscovery.Text

/-- How a character of a keyword is compared with a character of the text. -/
abbrev Fits := Char → Char → Bool

/-- Equal characters only. -/
def exactly : Fits := fun k c => k == c

/-- Equal characters, and letters that differ in case only. -/
def anyCase : Fits := fun k c =>
  k == c || (k.isLower && c.isUpper && c.toLower == k) || (k == 's' && c == 'ſ') || (k == 'k' && c == '\u212a') ||
    (k == 'i' && (c == 'İ' || c == 'ı'))

/-- What follows the keyword at the front of a text. -/
def afterKeyword? (fits : Fits) : List Char → List Char → Option (List Char)
  | [], s => some s
  | _ :: _, [] => none
  | k :: ks, c :: r => if fits k c then afterKeyword? fits ks r else none

end TestDiscovery.Text
