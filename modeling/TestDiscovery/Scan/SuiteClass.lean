-- SUMMARY: Classes that are test suites.
import TestDiscovery.Scan.Log
import TestDiscovery.Scan.PlainClass

/-!
# Test suites

A suite annotation stands above the class header that it belongs to, so its members are kept back until that
header is met, and are lost without one. The first line, comment lines, and all that follows the header are
not read. A line with a suite marker is read for members and never as a header.
-/

namespace TestDiscovery.Scan

/-- How the word of a suite annotation is compared. -/
def annotationFits (o : Options) : Text.Fits :=
  if o.suiteCaseSensitive then Text.exactly else Text.anyCase

/-- What a suite text comes to: its class with the members, or members that no class holds. -/
inductive SuiteBody where
  | anchored (range : Range) (name : String) (members : List SuiteMember)
  | headless (members : List SuiteMember)
deriving DecidableEq, Repr

/-- The suite in lines numbered from `n`, with the members collected above them. -/
def suiteFrom (o : Options) (n : Nat) (members : List SuiteMember) : List (List Char) → SuiteBody
  | [] => .headless members
  | line :: rest =>
    if Grammar.isCommentLine line then suiteFrom o (n + 1) members rest
    else if Grammar.Marker.suite.occursIn line then
      suiteFrom o (n + 1) (members ++ Grammar.suiteMembers (annotationFits o) n line) rest
    else match Grammar.className? line with
      | some name => .anchored (headerRange o n line name) (String.ofList name) members
      | none => suiteFrom o (n + 1) members rest

/-- The suite in a text, whose first line is not read. -/
def suiteBody (o : Options) (text : List Char) : SuiteBody := suiteFrom o 1 [] (Text.lines text).tail

/-- Each member of a suite is a test class, whichever attribute names it. -/
def memberFinding (m : SuiteMember) : Finding := .testClass m.range m.name

/-- The class of a suite and its members. -/
def SuiteBody.findings : SuiteBody → List Finding
  | anchored range name members => .suite range name :: members.map memberFinding
  | headless _ => []

/-- Members that are lost are logged. -/
def SuiteBody.events (path : String) : SuiteBody → List Event
  | anchored .. => []
  | headless members => if members.isEmpty then [] else [.headlessSuite path members.length]

/-- The finding for the file as a whole. -/
def fileSuite (path : String) : Finding := .suite (.onLine 0 0 0) ("[suite] " ++ path)

end TestDiscovery.Scan
