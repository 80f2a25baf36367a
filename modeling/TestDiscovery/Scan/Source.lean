-- SUMMARY: Scanning one source text, by its suffix and its markers.
import TestDiscovery.Scan.PlainProgram
import TestDiscovery.Scan.SuiteClass

/-!
# Scanning

The end of the path says whether a text is a class or a program, and a suite marker anywhere says that it is
a suite. Suites of programs are not read.
-/

namespace TestDiscovery

/-- The findings in a source text and what was logged. -/
structure Scan where
  findings : List Finding := []
  events : List Event := []
deriving DecidableEq, Repr

/-- What the end of a path makes of a file. -/
inductive SourceKind where
  | classFile
  | programFile
deriving DecidableEq, Repr

/-- The kind of a file by the end of its path, in exact letter case. The suffix of classes goes first. -/
def SourceKind.ofPath? (o : Options) (path : String) : Option SourceKind :=
  if o.classExtension.toList.isSuffixOf path.toList then some .classFile
  else if o.programExtension.toList.isSuffixOf path.toList then some .programFile
  else none

/-- Whether a text is a suite. -/
def isSuite (text : String) : Bool := Grammar.Marker.suite.occursIn text.toList

/-- The scan of a text that stands at `path`. -/
def scan (o : Options) (path text : String) : Scan :=
  match SourceKind.ofPath? o path, isSuite text with
  | none, _ => { events := [.notSource path] }
  | some .classFile, true =>
    let body := Scan.suiteBody o text.toList
    { findings := Scan.fileSuite path :: body.findings, events := body.events path }
  | some .classFile, false => { findings := Scan.plainClass o text.toList }
  | some .programFile, true => { events := [.programSuite path] }
  | some .programFile, false => { findings := Scan.plainProgram o text.toList }

/-- The entities of a scan. -/
def Scan.entities (s : Scan) (path : String) : List Entity := s.findings.map (Finding.toEntity path)

end TestDiscovery
