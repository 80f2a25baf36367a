-- SUMMARY: What is logged during scanning and discovery, and how a record reads.
/-!
# Log

Scanning and discovery log what they leave out and how much they found. An event is the fact; its level, the
name of its channel and its wording follow from it.
-/

namespace TestDiscovery

inductive Level where
  | debug
  | warning
deriving DecidableEq, Repr

def Level.label : Level → String
  | debug => "DEBUG"
  | warning => "WARNING"

inductive Event where
  /-- A file is neither a class nor a program by its suffix. -/
  | notSource (path : String)
  /-- A suite has members but no class header that could hold them. -/
  | headlessSuite (path : String) (members : Nat)
  /-- A program is a suite. -/
  | programSuite (path : String)
  /-- A file could not be read. -/
  | unreadable (path reason : String)
  /-- A file was scanned. -/
  | scanned (path : String) (entities : Nat)
deriving DecidableEq, Repr

namespace Event

def level : Event → Level
  | unreadable .. => .warning
  | _ => .debug

/-- The scanner and the search through a repository log under names of their own. -/
def channel : Event → String
  | unreadable .. | scanned .. => "ablunit.discover"
  | _ => "ablunit.parsers.abl_parser"

def message : Event → String
  | notSource path => "Skipping " ++ path ++ ": not an ABL class or program file"
  | headlessSuite path members =>
    path ++ ": @TestSuite without a class header, " ++ toString members ++ " member(s) not reported"
  | programSuite path => path ++ ": test suite programs are not supported yet"
  | unreadable path reason => "Skipping " ++ path ++ ": " ++ reason
  | scanned path entities => path ++ ": " ++ toString entities ++ " test entities"

/-- The full record of an event. -/
def line (e : Event) : String := e.level.label ++ " " ++ e.channel ++ ": " ++ e.message

end Event

end TestDiscovery
