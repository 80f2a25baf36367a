-- SUMMARY: Blank characters, and cutting them off the ends of a text.
/-!
# Blanks

A blank is a character of white space in the sense of Unicode, together with the four information separators
U+001C to U+001F. Keywords, names and comments are told apart by blanks and by nothing else.
-/

namespace TestDiscovery.Text

/-- White space, the line break included. -/
def isBlank (c : Char) : Bool :=
  let n := c.toNat
  (9 ≤ n && n ≤ 13) || (0x1C ≤ n && n ≤ 0x20) || n == 0x85 || n == 0xA0 || n == 0x1680 ||
    (0x2000 ≤ n && n ≤ 0x200A) || n == 0x2028 || n == 0x2029 || n == 0x202F || n == 0x205F || n == 0x3000

/-- The text without the blanks in front of it. -/
def trimLeft (s : List Char) : List Char := s.dropWhile isBlank

/-- The text without the blanks after it. -/
def trimRight (s : List Char) : List Char := (s.reverse.dropWhile isBlank).reverse

/-- The text without the blanks at either end. -/
def trim (s : List Char) : List Char := trimRight (trimLeft s)

/-- The characters up to the first blank. -/
def word (s : List Char) : List Char := s.takeWhile fun c => !isBlank c

/-- What is left after the first word. -/
def afterWord (s : List Char) : List Char := s.dropWhile fun c => !isBlank c

/-- Whether the text starts with a blank. -/
def startsBlank : List Char → Bool
  | [] => false
  | c :: _ => isBlank c

theorem word_append_afterWord (s : List Char) : word s ++ afterWord s = s :=
  List.takeWhile_append_dropWhile

end TestDiscovery.Text
