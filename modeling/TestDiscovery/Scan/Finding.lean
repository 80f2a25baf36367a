-- SUMMARY: What a scan finds, and the collector that turns findings into entities.
import TestDiscovery.Source.Entity

/-!
# Findings

A finding is what the scanner sees at one place, before anyone says which file it belongs to. A collector
adds the path and keeps the entities in the order of the findings.
-/

namespace TestDiscovery

inductive Finding where
  | suite (range : Range) (name : String)
  | testClass (range : Range) (name : String)
  | program (range : Range) (name : String)
  | method (range : Range) (className name : String)
  | procedure (range : Range) (programName name : String)
  | assertion (range : Range) (methodName : String)
deriving DecidableEq, Repr

namespace Finding

/-- The entity for a finding in the file at `path`. An assertion has no name of its own. -/
def toEntity (path : String) : Finding → Entity
  | suite range name => { kind := .suite, name, range, path }
  | testClass range name => { kind := .testClass, name, range, path }
  | program range name => { kind := .program, name, range, path }
  | method range className name => { kind := .method, name, range, parent := className, path }
  | procedure range programName name => { kind := .procedure, name, range, parent := programName, path }
  | assertion range methodName => { kind := .assertion, name := "", range, parent := methodName, path }

def kind : Finding → Kind
  | suite .. => .suite
  | testClass .. => .testClass
  | program .. => .program
  | method .. => .method
  | procedure .. => .procedure
  | assertion .. => .assertion

def range : Finding → Range
  | suite r _ | testClass r _ | program r _ | method r _ _ | procedure r _ _ | assertion r _ => r

@[simp] theorem toEntity_kind (path : String) (f : Finding) : (f.toEntity path).kind = f.kind := by
  cases f <;> rfl

@[simp] theorem toEntity_range (path : String) (f : Finding) : (f.toEntity path).range = f.range := by
  cases f <;> rfl

@[simp] theorem toEntity_path (path : String) (f : Finding) : (f.toEntity path).path = path := by
  cases f <;> rfl

end Finding

-- ---------------------------------------------------------------------------
-- Collecting
-- ---------------------------------------------------------------------------

/-- The entities found so far, and the path that the next ones are given. -/
structure Collector where
  path : String := ""
  entities : List Entity := []
deriving Repr

namespace Collector

/-- The collector after further findings. -/
def add (c : Collector) (findings : List Finding) : Collector :=
  { c with entities := c.entities ++ findings.map (Finding.toEntity c.path) }

/-- The entities whose kind is written as `label`. -/
def labelled (c : Collector) (label : String) : List Entity :=
  c.entities.filter fun e => e.kind.label = label

@[simp] theorem entities_add (c : Collector) (findings : List Finding) :
    (c.add findings).entities = c.entities ++ findings.map (Finding.toEntity c.path) := rfl

@[simp] theorem path_add (c : Collector) (findings : List Finding) : (c.add findings).path = c.path := rfl

end Collector

end TestDiscovery
