-- SUMMARY: A collector and a scanner that live through several steps.
import TestDiscovery.Scan.Source

/-!
# Sessions

A session has one collector and one set of options. Its steps scan texts, report findings directly, and change
the path of the collector or the options; each step sees what the steps before it have set. A set of options grows
by exclusions as long as it is in force: `optionsThrough` is what it ends up as.
-/

namespace TestDiscovery

structure Session where
  collector : Collector := {}
  options : Options := {}
deriving Repr

namespace Session

inductive Step where
  | scan (path text : String)
  | report (finding : Finding)
  | setPath (path : String)
  | setOptions (options : Options)
  | exclude (name : String)
deriving DecidableEq, Repr

/-- What a step finds in the present state. -/
def Step.findings (s : Session) : Step → List Finding
  | .scan path text => (TestDiscovery.scan s.options path text).findings
  | .report finding => [finding]
  | _ => []

/-- What a step logs in the present state. -/
def Step.events (s : Session) : Step → List Event
  | .scan path text => (TestDiscovery.scan s.options path text).events
  | _ => []

/-- The session after a step. -/
def step (s : Session) (a : Step) : Session :=
  let collector := s.collector.add (a.findings s)
  match a with
  | .setPath path => { s with collector := { collector with path } }
  | .setOptions options => { collector, options }
  | .exclude name => { collector, options := s.options.exclude name }
  | _ => { s with collector }

/-- The session after a list of steps. -/
def run (s : Session) (steps : List Step) : Session := steps.foldl step s

/-- What a set of options ends up as: the steps that follow add exclusions to it, until another set takes its place. -/
def optionsThrough (o : Options) : List Step → Options
  | [] | .setOptions _ :: _ => o
  | .exclude name :: rest => optionsThrough (o.exclude name) rest
  | _ :: rest => optionsThrough o rest

end Session

end TestDiscovery
