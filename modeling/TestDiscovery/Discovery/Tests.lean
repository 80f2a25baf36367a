-- SUMMARY: The tests in a file and in a repository.
import TestDiscovery.Discovery.Repository
import TestDiscovery.Discovery.Sources
import TestDiscovery.Scan.Source

/-!
# Discovery

The tests of one file are those that its scan finds, under the path of the file from the root of the repository. The
tests of a repository are those of its source files in the order of the walk; a file that cannot be read is logged and
left out. Where the walk fails, what was logged before remains.
-/

namespace TestDiscovery

/-- The entities that discovery gives, and what was logged. -/
structure Discovery where
  entities : List Entity := []
  events : List Event := []
deriving DecidableEq, Repr

namespace Discovery

/-- The entities of a scan with the path of the file. -/
def ofScan (path : String) (s : Scan) : Discovery := ⟨s.entities path, s.events⟩

def append (a b : Discovery) : Discovery := ⟨a.entities ++ b.entities, a.events ++ b.events⟩

end Discovery

/-- A failure, and what was logged before it. -/
structure Interruption where
  failure : Failure
  events : List Event := []
deriving DecidableEq, Repr

/-- Whether there is a scanner for the file at a path. -/
def isSource (o : Options) (p : Path) : Bool := hasSuffix o.extensions p.name

namespace FileSystem

/-- Given options, or those of the repository. -/
def optionsOr (fs : FileSystem) (root : Path) : Option Options → Except Failure Options
  | some o => .ok o
  | none => fs.loadOptions root

/-- The tests in the file at a path, read and scanned. -/
def scanFile (fs : FileSystem) (o : Options) (root file : Path) : Except Failure Discovery := do
  let text ← fs.readSource file
  let path ← fs.relativePath file root
  return .ofScan path (scan o path text)

/-- The tests in one file, which is given by its path or by its path from the root. -/
def discoverFile (fs : FileSystem) (given : String) (root : Option Path) (options : Option Options) :
    Except Failure Discovery := do
  let root ← fs.rootOr root
  let o ← fs.optionsOr root options
  let file := root.join (Path.parse given)
  if !(← fs.hasPath file) then .error (.noFile given)
  else if !isSource o file then .error (.unsupported given)
  else fs.scanFile o root file

/-- The tests in one file of a repository. A file that cannot be read has none. -/
def discoverSource (fs : FileSystem) (o : Options) (root file : Path) : Except Failure Discovery :=
  if !isSource o file then .ok {}
  else match fs.readSource file with
    | .error e => .ok { events := [.unreadable file.text e.message] }
    | .ok text => do
      let path ← fs.relativePath file root
      let found := Discovery.ofScan path (scan o path text)
      return { found with events := found.events ++ [.scanned path found.entities.length] }

/-- The tests in what a walk finds, after those that were found before. -/
def discoverFound (fs : FileSystem) (o : Options) (root : Path) (before : Discovery) :
    List (Except FileError Path) → Except Interruption Discovery
  | [] => .ok before
  | .error e :: _ => .error ⟨.inaccessible e, before.events⟩
  | .ok file :: rest =>
    match fs.discoverSource o root file with
    | .ok found => fs.discoverFound o root (before.append found) rest
    | .error failure => .error ⟨failure, before.events⟩

/-- What a walk needs: the root, the options, and the walk itself. -/
def startDiscovery (fs : FileSystem) (root : Option Path) (options : Option Options) :
    Except Failure (Path × Options × Walk) := do
  let root ← fs.rootOr root
  let o ← fs.optionsOr root options
  return (root, o, ← fs.walk o root)

/-- The tests in a repository. -/
def discoverTests (fs : FileSystem) (root : Option Path) (options : Option Options) : Except Interruption Discovery :=
  match fs.startDiscovery root options with
  | .ok (root, o, w) => fs.discoverFound o root {} w.found
  | .error failure => .error { failure }

end FileSystem

end TestDiscovery
