-- SUMMARY: JSON texts with indentation, in ASCII.
/-!
# JSON

A value is written over several lines, each level indented by two more spaces. Strings are in ASCII: a character
outside of it is escaped by its code, and one beyond four hexadecimal digits by the codes of a surrogate pair.
-/

namespace TestDiscovery.Report

-- ---------------------------------------------------------------------------
-- Strings and numbers
-- ---------------------------------------------------------------------------

/-- A code as an escape with four hexadecimal digits. -/
def codeEscape (n : Nat) : List Char :=
  ['\\', 'u', Nat.digitChar (n / 4096 % 16), Nat.digitChar (n / 256 % 16), Nat.digitChar (n / 16 % 16),
    Nat.digitChar (n % 16)]

/-- A character inside a string. -/
def escapeChar (c : Char) : List Char :=
  if c = '"' then ['\\', '"']
  else if c = '\\' then ['\\', '\\']
  else if c = '\n' then ['\\', 'n']
  else if c = '\r' then ['\\', 'r']
  else if c = '\t' then ['\\', 't']
  else if c = '\x0C' then ['\\', 'f']
  else if c = '\x08' then ['\\', 'b']
  else if 0x20 ≤ c.toNat && c.toNat ≤ 0x7E then [c]
  else if c.toNat < 0x10000 then codeEscape c.toNat
  else
    let n := c.toNat - 0x10000
    codeEscape (0xD800 + n / 0x400) ++ codeEscape (0xDC00 + n % 0x400)

/-- A string in quotes. -/
def string (s : String) : List Char := '"' :: s.toList.flatMap escapeChar ++ ['"']

/-- A number. -/
def number (n : Int) : List Char := (toString n).toList

-- ---------------------------------------------------------------------------
-- Collections
-- ---------------------------------------------------------------------------

/-- The start of a line at a level of nesting. -/
def newLine (level : Nat) : List Char := '\n' :: List.replicate (2 * level) ' '

/-- Parts on lines of their own, with commas between. -/
def separated (level : Nat) : List (List Char) → List Char
  | [] => []
  | [part] => newLine level ++ part
  | part :: next :: parts => newLine level ++ part ++ ',' :: separated level (next :: parts)

/-- A list at a level of nesting. -/
def array (level : Nat) (items : List (List Char)) : List Char :=
  if items.isEmpty then ['[', ']'] else '[' :: separated (level + 1) items ++ newLine level ++ [']']

/-- A member of an object. -/
def member (key : String) (value : List Char) : List Char := string key ++ ':' :: ' ' :: value

/-- An object with at least one member, at a level of nesting. -/
def object (level : Nat) (members : List (List Char)) : List Char :=
  '{' :: separated (level + 1) members ++ newLine level ++ ['}']

end TestDiscovery.Report
