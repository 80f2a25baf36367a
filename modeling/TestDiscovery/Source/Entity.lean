-- SUMMARY: What a scan can report: test entities, members of a suite, assertion calls.
import TestDiscovery.Source.Position

/-!
# Entities

An entity is a test construct at a place: a suite, a class, a program, a method, a procedure or an
assertion. A suite member is a name inside an annotation, and an assertion call is a piece of a line.
-/

namespace TestDiscovery

inductive Kind where
  | suite
  | testClass
  | program
  | method
  | procedure
  | assertion
deriving DecidableEq, Repr

namespace Kind

/-- The word for a kind in every output. -/
def label : Kind → String
  | suite => "suite"
  | testClass => "class"
  | program => "program"
  | method => "method"
  | procedure => "procedure"
  | assertion => "assert"

end Kind

/-- A test construct. The parent is the owning class or program, empty where there is none. -/
structure Entity where
  kind : Kind
  name : String
  range : Range
  parent : String := ""
  path : String := ""
deriving DecidableEq, Repr

/-- A name listed in a suite annotation, with the attribute word as it is spelled there. -/
structure SuiteMember where
  word : String
  name : String
  range : Range
deriving DecidableEq, Repr

/-- An assertion, from its class name to the last closing parenthesis of the line. -/
structure AssertCall where
  range : Range
  text : String
deriving DecidableEq, Repr

end TestDiscovery
