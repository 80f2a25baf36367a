-- SUMMARY: Lists of entities and of assertion calls as JSON.
import TestDiscovery.Report.Json
import TestDiscovery.Source.Entity

/-!
# Reports

A report is a list of objects. The members of each object have a fixed order.
-/

namespace TestDiscovery.Report

def position (level : Nat) (p : Position) : List Char :=
  object level [member "line" (number p.line), member "column" (number p.column)]

def range (level : Nat) (r : Range) : List Char :=
  object level [member "start" (position (level + 1) r.start), member "end" (position (level + 1) r.stop)]

def entity (level : Nat) (e : Entity) : List Char :=
  object level [
    member "kind" (string e.kind.label), member "name" (string e.name), member "range" (range (level + 1) e.range),
    member "parent" (string e.parent), member "path" (string e.path)]

def assertCall (level : Nat) (c : AssertCall) : List Char :=
  object level [member "range" (range (level + 1) c.range), member "text" (string c.text)]

/-- The report of entities. -/
def entities (es : List Entity) : String := String.ofList (array 0 (es.map (entity 1)))

/-- The report of assertion calls. -/
def assertCalls (cs : List AssertCall) : String := String.ofList (array 0 (cs.map (assertCall 1)))

end TestDiscovery.Report
