-- SUMMARY: Calls of the assertion class.
import TestDiscovery.Text.Blank
import TestDiscovery.Text.Keyword
import TestDiscovery.Text.Lines
import TestDiscovery.Text.Search
import TestDiscovery.Source.Entity

/-!
# Assertions

An assertion is the name of the assertion class with its colon, the name of a method, perhaps some blanks, and
an argument list that ends with the last closing parenthesis of the line. A line has at most one.
-/

namespace TestDiscovery.Grammar

def assertWord : List Char :=
  ['o', 'p', 'e', 'n', 'e', 'd', 'g', 'e', '.', 'c', 'o', 'r', 'e', '.', 'a', 's', 's', 'e', 'r', 't', ':']

/-- Whether a character can belong to the name of an assertion method. -/
def inAssertName (c : Char) : Bool := !Text.isBlank c && c != '('

/-- The rest of the line after an assertion that starts the text. -/
def afterAssertion? (s : List Char) : Option (List Char) :=
  match Text.afterKeyword? Text.anyCase assertWord s with
  | none => none
  | some r =>
    if (r.takeWhile inAssertName).isEmpty then none
    else match Text.trimLeft (r.dropWhile inAssertName) with
      | '(' :: arguments => (Text.splitLast? ')' arguments).map (·.2)
      | _ => none

/-- The first assertion of a text that starts in column `column`: its column and its characters. -/
def assertionFrom? (column : Nat) : List Char → Option (Nat × List Char)
  | [] => none
  | c :: r =>
    match afterAssertion? (c :: r) with
    | some rest => some (column, (c :: r).take ((c :: r).length - rest.length))
    | none => assertionFrom? (column + 1) r

/-- The assertion on a line. -/
def assertion? (line : List Char) : Option (Nat × List Char) := assertionFrom? 0 line

/-- The assertions of lines numbered from `n`. -/
def assertCallsFrom (n : Nat) : List (List Char) → List AssertCall
  | [] => []
  | line :: rest =>
    match assertion? line with
    | some (column, text) =>
      ⟨.onLine n column (column + text.length), String.ofList text⟩ :: assertCallsFrom (n + 1) rest
    | none => assertCallsFrom (n + 1) rest

/-- The assertion calls of a source text, in line order. -/
def assertCalls (source : String) : List AssertCall := assertCallsFrom 0 (Text.lines source.toList)

end TestDiscovery.Grammar
