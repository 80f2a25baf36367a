-- SUMMARY: Values of YAML nodes that have no parts, their equality as keys, and their text.
import TestDiscovery.Number.Shortest
import TestDiscovery.Text.Quoted
import TestDiscovery.Yaml.Binary
import TestDiscovery.Yaml.Calendar
import TestDiscovery.Yaml.Number

/-!
# Atoms

An atom is a value without parts. Atoms are equal as keys if they are the same value, which numbers can be across
their kinds: true is one, and a whole number may be written with a point.
-/

namespace TestDiscovery.Yaml

inductive Atom where
  | null
  | bool (b : Bool)
  | int (n : Int)
  | float (d : Double)
  | text (s : String)
  | bytes (b : List UInt8)
  | date (d : Date)
  | dateTime (t : DateTime)
deriving DecidableEq, Repr

namespace Atom

-- ---------------------------------------------------------------------------
-- Equality as keys
-- ---------------------------------------------------------------------------

/-- The whole number that an atom equals, if it is one. -/
def toInt? : Atom → Option Int
  | bool b => some (if b then 1 else 0)
  | int n => some n
  | float d => d.toInt?
  | _ => none

/-- Whether two atoms are the same key. -/
def same (a b : Atom) : Bool :=
  match a.toInt?, b.toInt? with
  | some m, some n => m == n
  | none, none =>
    match a, b with
    | dateTime s, dateTime t => s.same t
    | _, _ => a == b
  | _, _ => false

-- ---------------------------------------------------------------------------
-- Reading
-- ---------------------------------------------------------------------------

/-- The words for truth values. -/
def boolWords : List (String × Bool) :=
  [("yes", true), ("no", false), ("true", true), ("false", false), ("on", true), ("off", false)]

/-- The atom that a text stands for under a tag, if the tag is one of an atom. -/
def ofText? (tag text : String) : Option (Except Error Atom) :=
  if tag = Tag.null then some (.ok null)
  else if tag = Tag.bool then
    some (match boolWords.lookup (String.ofList (Text.toLower text.toList)) with
      | some b => .ok (bool b)
      | none => .error .badValue)
  else if tag = Tag.int then some (int <$> whole text.toList)
  else if tag = Tag.float then some (float <$> Yaml.float text.toList)
  else if tag = Tag.binary then some (bytes <$> Binary.decode text.toList)
  else if tag = Tag.timestamp then some (Sum.elim date dateTime <$> timeOf? text.toList)
  else if tag = Tag.str then some (.ok (Atom.text text))
  else none

-- ---------------------------------------------------------------------------
-- Writing
-- ---------------------------------------------------------------------------

/-- A whole number in base 10, unless it is too long. -/
def intText (n : Int) : Except Error String :=
  if maxDigits < (toString n.natAbs).length then .error .badValue else .ok (toString n)

/-- An atom inside another value. -/
def nested : Atom → Except Error String
  | null => .ok "None"
  | bool b => .ok (if b then "True" else "False")
  | int n => intText n
  | float d => .ok (String.ofList d.text)
  | text s => .ok (String.ofList (Text.quoted s.toList))
  | bytes b => .ok (String.ofList (Text.quotedBytes b))
  | date d => .ok d.call
  | dateTime t => .ok t.call

/-- An atom by itself: texts stand without quotes, and times in digits. -/
def plain : Atom → Except Error String
  | text s => .ok s
  | date d => .ok d.text
  | dateTime t => .ok t.text
  | a => a.nested

end Atom

end TestDiscovery.Yaml
