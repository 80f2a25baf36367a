-- SUMMARY: The three spellings of a line break, read as one.
/-!
# Line breaks in files

A file may end its lines with a line feed, a carriage return, or both. On reading, each of them becomes one
line feed.
-/

namespace TestDiscovery.Text

/-- The text with every line ending written as one line feed. -/
def unifyNewlines : List Char → List Char
  | [] => []
  | '\r' :: '\n' :: r => '\n' :: unifyNewlines r
  | c :: r => (if c = '\r' then '\n' else c) :: unifyNewlines r

end TestDiscovery.Text
