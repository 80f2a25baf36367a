-- SUMMARY: Running a request: exit code, output and messages.
import TestDiscovery.Command.Request
import TestDiscovery.Discovery.Tests
import TestDiscovery.Grammar.Assertion
import TestDiscovery.Report.Entity
import TestDiscovery.Text.Colour

/-!
# Commands

A command writes a report and succeeds, or writes a message and fails. The exit code says which kind of failure it
was; the commands do not all draw that line at the same place.
-/

namespace TestDiscovery

/-- What a run of the program leaves behind. -/
structure Outcome where
  exitCode : Nat := 0
  stdout : String := ""
  stderr : String := ""
deriving DecidableEq, Repr

namespace Outcome

def versionText : String := "ablunit version 0.1.0\n"

def usageText : String := "Usage: ablunit [--version] [--verbose] [discover [ROOT] | scan FILE | asserts FILE]\n"

/-- The messages for what was logged: all records, or the texts of the warnings. -/
def logged (verbose : Bool) (events : List Event) : String :=
  String.join (events.map fun e =>
    if verbose then e.line ++ "\n" else if e.level = .warning then e.message ++ "\n" else "")

/-- Success with a report. -/
def success (report log : String) : Outcome := { stdout := report ++ "\n", stderr := log }

/-- Failure with a message, which is written after the log and without terminal codes. -/
def failure (exitCode : Nat) (f : Failure) (log : String) : Outcome :=
  { exitCode, stderr := log ++ String.ofList (Text.dropCodes ("Error: " ++ f.message).toList) ++ "\n" }

end Outcome

namespace Command

/-- The exit code of `discover` for a failure: a missing repository is told apart. -/
def discoverCode : Failure → Nat
  | .noRepository _ => 1
  | _ => 2

/-- The exit code of `scan` for a failure: what is wrong with the given file or its repository is told apart. -/
def scanCode : Failure → Nat
  | .noRepository _ | .noFile _ | .unsupported _ | .undecodable _ | .nulInPath => 1
  | .inaccessible e => if e.fault = .missing then 1 else 2
  | .linkLoop _ | .configuration _ => 2

/-- The exit code of `asserts` for a failure to read a file. -/
def assertsCode : Failure → Nat
  | .noFile _ | .unsupported _ | .undecodable _ | .nulInPath | .inaccessible _ => 1
  | .noRepository _ | .linkLoop _ | .configuration _ => 2

/-- The tests in the given root, with its options. -/
def discoverIn (fs : FileSystem) (root : Option String) : Except Interruption Discovery :=
  match fs.rootOr (root.map Path.parse) with
  | .ok root =>
    match fs.loadOptions root with
    | .ok o => fs.discoverTests (some root) (some o)
    | .error failure => .error { failure }
  | .error failure => .error { failure }

/-- What a command leaves behind. -/
def run (fs : FileSystem) (verbose : Bool) : Command → Outcome
  | discover root =>
    match discoverIn fs root with
    | .ok found => .success (Report.entities found.entities) (Outcome.logged verbose found.events)
    | .error e => .failure (discoverCode e.failure) e.failure (Outcome.logged verbose e.events)
  | scan file =>
    match fs.discoverFile file none none with
    | .ok found => .success (Report.entities found.entities) (Outcome.logged verbose found.events)
    | .error f => .failure (scanCode f) f ""
  | asserts file =>
    match fs.readSource (Path.parse file) with
    | .ok text => .success (Report.assertCalls (Grammar.assertCalls text)) ""
    | .error f => .failure (assertsCode f) f ""

end Command

/-- What a run of the program with the given arguments leaves behind. -/
def runProgram (fs : FileSystem) (args : List String) : Outcome :=
  match Request.ofArgs args with
  | .version => { stdout := Outcome.versionText }
  | .nothing => {}
  | .usage => { exitCode := 2, stderr := Outcome.usageText }
  | .run verbose command => command.run fs verbose

end TestDiscovery
