-- SUMMARY: Suite annotations and the members they name.
import TestDiscovery.Text.Keyword
import TestDiscovery.Text.Lines
import TestDiscovery.Text.Search
import TestDiscovery.Source.Entity

/-!
# Suite annotations

An annotation `@testsuite(…)` ends with the last closing parenthesis of its line. Between the parentheses it has
attributes `classes="…"` and `procedures="…"`, whose values are lists of names separated by commas. Two
attributes are read: the first one, and the first one with a comma right before it.
-/

namespace TestDiscovery.Grammar

-- ---------------------------------------------------------------------------
-- Parameters
-- ---------------------------------------------------------------------------

def annotationWord : List Char := ['@', 't', 'e', 's', 't', 's', 'u', 'i', 't', 'e', '(']

/-- The parameters of the first annotation that has a closing parenthesis on its line. -/
def parameters? (fits : Text.Fits) : List Char → Option (List Char)
  | [] => none
  | c :: r =>
    match (Text.afterKeyword? fits annotationWord (c :: r)).bind
        fun inner => Text.splitLast? ')' (inner.takeWhile (· != '\n')) with
    | some (inside, _) => some inside
    | none => parameters? fits r

-- ---------------------------------------------------------------------------
-- Attributes
-- ---------------------------------------------------------------------------

def classesWord : List Char := ['c', 'l', 'a', 's', 's', 'e', 's']

def proceduresWord : List Char := ['p', 'r', 'o', 'c', 'e', 'd', 'u', 'r', 'e', 's']

/-- An attribute as it is written: its word and the text between its quotes. -/
structure Attribute where
  word : List Char
  value : List Char
deriving DecidableEq, Repr

/-- The value between the quotes that follow the word of an attribute. -/
def attributeValue? : List Char → Option (List Char)
  | '=' :: '"' :: r =>
    if (r.dropWhile (· != '"')).isEmpty then none else some (r.takeWhile (· != '"'))
  | _ => none

/-- The attribute with the given word at the front of a text. -/
def attributeWith? (word s : List Char) : Option Attribute :=
  (Text.afterKeyword? Text.anyCase word s).bind fun r =>
    (attributeValue? r).map fun value => ⟨s.take word.length, value⟩

/-- The attribute at the front of a text. -/
def attributeAt? (s : List Char) : Option Attribute :=
  (attributeWith? classesWord s).or (attributeWith? proceduresWord s)

/-- The first attribute of the parameters. -/
def firstAttribute? : List Char → Option Attribute
  | [] => none
  | c :: r => (attributeAt? (c :: r)).or (firstAttribute? r)

/-- The first attribute with a comma right before it. -/
def furtherAttribute? : List Char → Option Attribute
  | [] => none
  | c :: r => (if c = ',' then attributeAt? r else none).or (furtherAttribute? r)

-- ---------------------------------------------------------------------------
-- Members
-- ---------------------------------------------------------------------------

/-- The column of the first occurrence of a name on a line, and -1 if there is none. -/
def columnOf (name line : List Char) : Int :=
  match Text.indexOf? name line with
  | some n => n
  | none => -1

/-- The member for one name of an attribute. -/
def Attribute.member (n : Int) (line : List Char) (a : Attribute) (name : List Char) : SuiteMember :=
  { word := String.ofList a.word
    name := String.ofList name
    range := .onLine n (columnOf name line) (columnOf name line + name.length) }

/-- The members that an attribute names on line `n`. -/
def Attribute.members (n : Int) (line : List Char) (a : Attribute) : List SuiteMember :=
  (Text.splitOn ',' a.value).map (a.member n line)

/-- The members that the annotation on line `n` names. -/
def suiteMembers (fits : Text.Fits) (n : Int) (line : List Char) : List SuiteMember :=
  match parameters? fits line with
  | none => []
  | some inside =>
    ((firstAttribute? inside).toList ++ (furtherAttribute? inside).toList).flatMap (Attribute.members n line)

end TestDiscovery.Grammar
