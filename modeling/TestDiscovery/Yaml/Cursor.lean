-- SUMMARY: A place in a YAML text, and moving over characters from there.
/-!
# Cursors

A cursor is the rest of a text with the line, the column and the number of characters before it. Four
characters end a line. The byte order mark takes no column.
-/

namespace TestDiscovery.Yaml

/-- The line breaks: line feed, next line, line separator, paragraph separator. -/
def isBreak (c : Char) : Bool := c == '\n' || c == '\x85' || c == '\u2028' || c == '\u2029'

/-- The characters that a text may hold. -/
def isPrintable (c : Char) : Bool :=
  let n := c.toNat
  n == 9 || n == 10 || n == 13 || (0x20 ≤ n && n ≤ 0x7E) || n == 0x85 || (0xA0 ≤ n && n ≤ 0xFFFD) || 0x10000 ≤ n

/-- Blanks inside a line. -/
def isSpace (c : Char) : Bool := c == ' ' || c == '\t'

/-- The end of a line or of the text. -/
def endsLine : Option Char → Bool
  | none => true
  | some c => isBreak c

/-- A blank or the end of a line. -/
def endsWord : Option Char → Bool
  | none => true
  | some c => isBreak c || isSpace c

/-- A space or the end of a line, but no tab. -/
def endsField : Option Char → Bool
  | none => true
  | some c => isBreak c || c == ' '

structure Cursor where
  rest : List Char
  line : Nat := 0
  column : Nat := 0
  index : Nat := 0
deriving Repr

namespace Cursor

/-- The next character. -/
def peek (c : Cursor) : Option Char := c.rest.head?

/-- The character `n` places on. -/
def peekAt (c : Cursor) (n : Nat) : Option Char := (c.rest.drop n).head?

/-- The cursor after the next character. -/
def next (c : Cursor) : Cursor :=
  match c.rest with
  | [] => c
  | ch :: rest =>
    if isBreak ch then { rest, line := c.line + 1, column := 0, index := c.index + 1 }
    else { rest, line := c.line, column := if ch = '\uFEFF' then c.column else c.column + 1, index := c.index + 1 }

/-- The cursor after the next `n` characters. -/
def advance : Nat → Cursor → Cursor
  | 0, c => c
  | n + 1, c => advance n c.next

/-- The longest run of characters with a property, and the cursor after it. -/
def span (p : Char → Bool) (c : Cursor) : List Char × Cursor :=
  let run := c.rest.takeWhile p
  (run, c.advance run.length)

/-- The cursor after the longest run of characters with a property. -/
def skipWhile (p : Char → Bool) (c : Cursor) : Cursor := (c.span p).2

/-- The cursor after spaces. -/
def skipSpaces (c : Cursor) : Cursor := c.skipWhile (· == ' ')

/-- The cursor at the end of the line. -/
def skipLine (c : Cursor) : Cursor := c.skipWhile fun ch => !isBreak ch

/-- The cursor after a comment, if one starts here. -/
def skipComment (c : Cursor) : Cursor := if c.peek = some '#' then c.skipLine else c

/-- The line break at the cursor as a value holds it, and the cursor after it. Two of the four breaks are kept
as they are, the others become a line feed. -/
def lineBreak (c : Cursor) : List Char × Cursor :=
  match c.peek with
  | some ch =>
    if ch == '\n' || ch == '\x85' then (['\n'], c.next)
    else if ch == '\u2028' || ch == '\u2029' then ([ch], c.next)
    else ([], c)
  | none => ([], c)

/-- Whether three characters stand here as a word of their own. -/
def atMark (mark : List Char) (c : Cursor) : Bool := mark.isPrefixOf c.rest && endsWord (c.peekAt 3)

/-- Whether a document ends or starts here, if this is the start of a line. -/
def atDocumentMark (c : Cursor) : Bool := c.atMark ['-', '-', '-'] || c.atMark ['.', '.', '.']

end Cursor

end TestDiscovery.Yaml
