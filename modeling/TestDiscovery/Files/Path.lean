-- SUMMARY: Paths as they are written: an anchor and names.
import TestDiscovery.Text.Lines
import TestDiscovery.Text.Lower
import TestDiscovery.Text.Search

/-!
# Paths

A path is an anchor and a list of names, read from a text with slashes. Empty names and single dots are
dropped on reading, double dots are kept. Two slashes at the front, and not three, are an anchor of their own.
-/

namespace TestDiscovery

/-- Where a path starts: at the working directory, or at the root in one of its two spellings. -/
inductive Anchor where
  | here
  | root
  | doubleRoot
deriving DecidableEq, Repr

def Anchor.text : Anchor → String
  | here => ""
  | root => "/"
  | doubleRoot => "//"

structure Path where
  anchor : Anchor := .here
  names : List String := []
deriving DecidableEq, Repr

namespace Path

/-- The pieces of a text between slashes. -/
def pieces (s : String) : List String := (Text.splitOn '/' s.toList).map String.ofList

/-- The anchor that a text starts with. -/
def anchorOf : List Char → Anchor
  | '/' :: '/' :: '/' :: _ => .root
  | '/' :: '/' :: _ => .doubleRoot
  | '/' :: _ => .root
  | _ => .here

/-- The path that a text spells. -/
def parse (s : String) : Path :=
  ⟨anchorOf s.toList, (pieces s).filter fun name => name != "" && name != "."⟩

/-- The path with slashes; a single dot where there is nothing to write. -/
def text (p : Path) : String :=
  if p.anchor = .here ∧ p.names = [] then "."
  else p.anchor.text ++ String.ofList (Text.joinWith '/' (p.names.map String.toList))

def isAbsolute (p : Path) : Bool := p.anchor != .here

/-- The path one name further. -/
def child (p : Path) (name : String) : Path := { p with names := p.names ++ [name] }

/-- The second path seen from the first. -/
def join (p q : Path) : Path := if q.isAbsolute then q else { p with names := p.names ++ q.names }

/-- The last name, empty if there is none. -/
def name (p : Path) : String := p.names.getLastD ""

/-- Whether some name holds the character that no file name can hold. -/
def hasNul (p : Path) : Bool := p.names.any fun name => name.toList.contains '\x00'

-- ---------------------------------------------------------------------------
-- Suffixes
-- ---------------------------------------------------------------------------

/-- The last dot of a name and what follows it, unless the dot is its first or last character. -/
def suffixOf (name : String) : String :=
  match Text.splitLast? '.' name.toList with
  | some (stem, ending) => if stem.isEmpty || ending.isEmpty then "" else String.ofList ('.' :: ending)
  | none => ""

/-- The suffix of the last name. -/
def suffix (p : Path) : String := suffixOf p.name

end Path

/-- The lower case of a text. -/
def lowerCase (s : String) : String := String.ofList (Text.toLower s.toList)

/-- Whether a file with this name has one of the suffixes, in any letter case. -/
def hasSuffix (suffixes : List String) (name : String) : Bool :=
  (suffixes.map lowerCase).contains (lowerCase (Path.suffixOf name))

end TestDiscovery
