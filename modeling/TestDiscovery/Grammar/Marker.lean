-- SUMMARY: Marker annotations and comment lines.
import TestDiscovery.Text.Blank
import TestDiscovery.Text.Lower
import TestDiscovery.Text.Search

/-!
# Markers

A marker is an annotation that says what a text is: `@Test.` stands above each test, `@TestSuite` somewhere
in each suite. A text carries a marker if its lower case holds it, wherever that is on a line.
-/

namespace TestDiscovery.Grammar

inductive Marker where
  | test
  | suite
deriving DecidableEq, Repr

/-- The marker in lower case. -/
def Marker.text : Marker → List Char
  | test => ['@', 't', 'e', 's', 't', '.']
  | suite => ['@', 't', 'e', 's', 't', 's', 'u', 'i', 't', 'e']

/-- Whether a text carries a marker. -/
def Marker.occursIn (m : Marker) (s : List Char) : Bool := Text.occurs m.text (Text.toLower s)

/-- Whether a line is a comment as a whole. -/
def isCommentLine (line : List Char) : Bool := ['/', '/'].isPrefixOf (Text.trim line)

end TestDiscovery.Grammar
