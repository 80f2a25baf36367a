-- SUMMARY: The source files of a repository, each real directory walked once.
import TestDiscovery.Discovery.Access

/-!
# Source files

The walk lists a directory in the order of its names and goes down into each directory as it is met. An excluded name
is not entered. Links are followed, and a directory that was listed before is not listed again, wherever it is met. An
entry that leads nowhere is passed over, but a link through a name that no file can have cannot even be examined: the
files above it are still found, and the walk fails there.
-/

namespace TestDiscovery

/-- What a walk has come to. -/
@[ext]
structure Walk where
  /-- The source files, and the entries that could not be examined, as they were met. -/
  found : List (Except FileError Path) := []
  /-- The directories that have been entered, the last one first, each with the path that it was entered by. -/
  entered : List (Path × Location) := []

namespace Walk

/-- What the walk finds at an entry that is no directory: a source file, a fault, or nothing. -/
def sight? (o : Options) (p : Path) : Except Fault (Location × Node) → Option (Except FileError Path)
  | .ok (_, .file _) => if hasSuffix o.extensions p.name then some (.ok p) else none
  | .error .nameTooLong => some (.error ⟨.nameTooLong, p⟩)
  | _ => none

/-- The walk after one more name in the directory at `dir`, whose path is `path`; `enter` walks a directory. -/
def visit (t : FileTree) (o : Options) (path : Path) (dir : Location)
    (enter : List (Path × Location) → Path → Location → Walk) (w : Walk) (name : String) : Walk :=
  match t.entry dir name with
  | .ok (place, .dir) =>
    if o.excludeDirs.contains name then w
    else
      let below := enter w.entered (path.child name) place
      ⟨w.found ++ below.found, below.entered⟩
  | e => { w with found := w.found ++ (sight? o (path.child name) e).toList }

/-- The walk of the directory at `dir`, after those in `entered`, at most `depth` directories deep. -/
def within (t : FileTree) (o : Options) : Nat → List (Path × Location) → Path → Location → Walk
  | 0, entered, _, _ => { entered }
  | depth + 1, entered, path, dir =>
    if dir ∈ entered.map Prod.snd then { entered }
    else (t.names dir).foldl (visit t o path dir (within t o depth)) { entered := (path, dir) :: entered }

/-- The walk of a directory. Each level below enters another directory, so there are at most as many levels as
directories. -/
def ofDirectory (t : FileTree) (o : Options) (path : Path) (dir : Location) : Walk :=
  within t o (t.directories.length + 2) [] path dir

end Walk

namespace FileSystem

/-- The walk below a root, which has to be a directory. -/
def walk (fs : FileSystem) (o : Options) (root : Path) : Except Failure Walk := do
  let _ ← fs.placeOf root
  let dir ← fs.directoryAt root
  return Walk.ofDirectory fs.tree o root dir

/-- The source files below a root. -/
def sourceFiles (fs : FileSystem) (o : Options) (root : Path) : Except Failure (List Path) := do
  let w ← fs.walk o root
  (w.found.mapM id).mapError .inaccessible

end FileSystem

end TestDiscovery
