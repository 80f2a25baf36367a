-- SUMMARY: Resolving paths, reading sources and reading the configuration, with their failures.
import TestDiscovery.Config.Load
import TestDiscovery.Discovery.Failure
import TestDiscovery.Files.System

/-!
# Access

The ways in which discovery touches the file system. A path that holds the NUL character fails before the system is
asked. A source is read as UTF-8 with its line breaks unified.
-/

namespace TestDiscovery.FileSystem

/-- The place that a path names. -/
def placeOf (fs : FileSystem) (p : Path) : Except Failure Location :=
  if p.hasNul then .error .nulInPath
  else match fs.resolve p with
    | .ok place => .ok place
    | .error place => .error (.linkLoop place.path)

/-- Whether a path leads to something. -/
def hasPath (fs : FileSystem) (p : Path) : Except Failure Bool := (fs.pathExists p).mapError .inaccessible

/-- The place of the directory that a path leads to. -/
def directoryAt (fs : FileSystem) (p : Path) : Except Failure Location :=
  if p.hasNul then .error .nulInPath else (fs.directory p).mapError .inaccessible

/-- The text of a source. -/
def readSource (fs : FileSystem) (p : Path) : Except Failure String :=
  if p.hasNul then .error .nulInPath
  else match fs.read p with
    | .error e => .error (.inaccessible e)
    | .ok bytes =>
      match Text.Utf8.decode bytes with
      | .error e => .error (.undecodable e)
      | .ok text => .ok (String.ofList (Text.unifyNewlines text))

/-- The options of a repository: the defaults if it has no configuration file that can be read. -/
def loadOptions (fs : FileSystem) (root : Path) : Except Failure Options := do
  let file := root.child Options.fileName
  if ← fs.hasPath file then
    match fs.read file with
    | .error _ => return {}
    | .ok bytes => (Options.ofBytes fs.loader bytes).mapError .configuration
  else return {}

end TestDiscovery.FileSystem
