-- SUMMARY: Declarations of test methods.
import TestDiscovery.Text.Blank
import TestDiscovery.Text.Keyword

/-!
# Methods

A method declaration is a run of blanks, the word `method`, at least one blank, perhaps the word `public`, the
word `void`, and a name of at least two characters. The first character of the name may be anything but a
blank; the others are no opening parentheses either. Only the blanks after `method` are required.
-/

namespace TestDiscovery.Grammar

def methodWord : List Char := ['m', 'e', 't', 'h', 'o', 'd']

def publicWord : List Char := ['p', 'u', 'b', 'l', 'i', 'c']

def voidWord : List Char := ['v', 'o', 'i', 'd']

/-- A declaration that was found: the name, and how many characters there are from the start of the blanks to
the end of the name. -/
structure MethodHeader where
  name : List Char
  length : Nat
deriving DecidableEq, Repr

/-- Whether a character can continue the name of a method. -/
def continuesName (c : Char) : Bool := !Text.isBlank c && c != '('

/-- The name at the front of a text, which no blank starts. -/
def methodName? : List Char → Option (List Char)
  | [] => none
  | c :: r => if (r.takeWhile continuesName).isEmpty then none else some (c :: r.takeWhile continuesName)

/-- The text after the word `public` and its blanks, if it starts with that word. -/
def skipPublic (s : List Char) : List Char :=
  match Text.afterKeyword? Text.anyCase publicWord s with
  | some r => Text.trimLeft r
  | none => s

/-- What follows the words of a declaration that starts the text, up to its name. -/
def afterMethodWords? (s : List Char) : Option (List Char) :=
  match Text.afterKeyword? Text.anyCase methodWord s with
  | none => none
  | some r =>
    if Text.startsBlank r then
      (Text.afterKeyword? Text.anyCase voidWord (skipPublic (Text.trimLeft r))).map Text.trimLeft
    else none

/-- The declaration whose run of blanks starts the text. -/
def methodAt? (s : List Char) : Option MethodHeader :=
  match afterMethodWords? (Text.trimLeft s) with
  | none => none
  | some r => (methodName? r).map fun name => ⟨name, s.length - r.length + name.length⟩

/-- The first declaration; `inBlanks` says whether a blank stands right before the text. -/
def methodFrom? (inBlanks : Bool) : List Char → Option MethodHeader
  | [] => none
  | c :: r =>
    match if Text.isBlank c && !inBlanks then methodAt? (c :: r) else none with
    | some header => some header
    | none => methodFrom? (Text.isBlank c) r

/-- The method that a line declares. -/
def method? (line : List Char) : Option MethodHeader := methodFrom? false line

end TestDiscovery.Grammar
