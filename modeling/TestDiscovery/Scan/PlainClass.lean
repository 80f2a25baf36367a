-- SUMMARY: Classes with test methods.
import TestDiscovery.Grammar.Annotation
import TestDiscovery.Grammar.Header
import TestDiscovery.Grammar.Marker
import TestDiscovery.Grammar.Method
import TestDiscovery.Config.Options
import TestDiscovery.Scan.Finding

/-!
# Test classes

The first class header of a text is the test class. Below it, each line after a test marker that declares a
method is a test method of that class; later headers do not count.
-/

namespace TestDiscovery.Scan

/-- The range of a name that a header on line `n` declares: from the first place where the line spells it. -/
def headerRange (o : Options) (n : Nat) (line name : List Char) : Range :=
  let start := Grammar.columnOf name line
  .onLine n start (if o.legacyRanges then name.length else start + name.length)

/-- The finding for a test method on line `n`. -/
def methodFinding (n : Nat) (className : List Char) (header : Grammar.MethodHeader) : Finding :=
  .method (.onLine n 0 header.length) (String.ofList className) (String.ofList header.name)

/-- The test methods on lines numbered from `n`, which the line `above` precedes. -/
def methodsFrom (className : List Char) (n : Nat) (above : List Char) : List (List Char) → List Finding
  | [] => []
  | line :: rest =>
    (match if Grammar.Marker.test.occursIn above then Grammar.method? line else none with
      | some header => [methodFinding n className header]
      | none => []) ++ methodsFrom className (n + 1) line rest

/-- The test class and its methods, in lines numbered from `n`. -/
def classFrom (o : Options) (n : Nat) : List (List Char) → List Finding
  | [] => []
  | line :: rest =>
    match Grammar.className? line with
    | some name =>
      .testClass (headerRange o n line name) (String.ofList name) :: methodsFrom name (n + 1) line rest
    | none => classFrom o (n + 1) rest

/-- The findings in the text of a class. Nothing is a test in a text without test markers. -/
def plainClass (o : Options) (text : List Char) : List Finding :=
  if Grammar.Marker.test.occursIn text then classFrom o 0 (Text.lines text) else []

end TestDiscovery.Scan
