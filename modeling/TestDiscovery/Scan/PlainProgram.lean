-- SUMMARY: Programs with test procedures.
import TestDiscovery.Scan.PlainClass

/-!
# Test programs

Each line after a test marker that declares a procedure is a test procedure. A program has no name of its
own, so its procedures have no parent.
-/

namespace TestDiscovery.Scan

/-- The finding for a test procedure on line `n`. -/
def procedureFinding (o : Options) (n : Nat) (line name : List Char) : Finding :=
  .procedure (headerRange o n line name) "" (String.ofList name)

/-- The test procedures on lines numbered from `n`, which the line `above` precedes. -/
def proceduresFrom (o : Options) (n : Nat) (above : List Char) : List (List Char) → List Finding
  | [] => []
  | line :: rest =>
    (match if Grammar.Marker.test.occursIn above then Grammar.procedureName? line else none with
      | some name => [procedureFinding o n line name]
      | none => []) ++ proceduresFrom o (n + 1) line rest

/-- The test procedures of a program with the given lines. -/
def procedures (o : Options) : List (List Char) → List Finding
  | [] => []
  | first :: rest => proceduresFrom o 1 first rest

/-- The findings in the text of a program. Nothing is a test in a text without test markers. -/
def plainProgram (o : Options) (text : List Char) : List Finding :=
  if Grammar.Marker.test.occursIn text then procedures o (Text.lines text) else []

end TestDiscovery.Scan
