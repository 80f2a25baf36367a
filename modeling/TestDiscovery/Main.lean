-- SUMMARY: The program: takes a picture of the file system and runs the request on it.
import TestDiscovery.Command.Run

/-!
# Program

The program looks at the part of the file system that the request can reach, and leaves the rest to the pure functions:
the directories above the starting places with their repository marks, the links on the way to them, and all that lies
below the places themselves.
-/

namespace TestDiscovery.Program

/-- Adds a node with the directories above it. -/
def put (fs : FileSystem) (place : String) (node : Node) : FileSystem :=
  let p := Path.parse place
  let changed := match node with
    | .dir => fs.makeDir? p
    | .link target => fs.makeLink? p target
    | .file bytes => fs.writeFile? p bytes
  changed.getD fs

/-- Adds all that lies at a place and below. A link stands for the place where it ends; one that ends nowhere is left
out. -/
partial def load (fs : FileSystem) (place : String) : IO FileSystem := do
  if (fs.tree.get? (Path.parse place).names.reverse).isSome then return fs
  let path := (← IO.currentDir) / place
  if !(← path.pathExists) then return fs
  match (← path.symlinkMetadata).type with
  | .file => return put fs place (.file (← IO.FS.readBinFile path).toList)
  | .dir =>
    let mut fs := put fs place .dir
    for entry in ← path.readDir do
      fs ← load fs (place ++ "/" ++ entry.fileName)
    return fs
  | .symlink =>
    let target := (← IO.FS.realPath path).toString
    if target = place then return fs
    load (put fs place (.link target)) target
  | .other => return fs

/-- Adds what is missing on the way to a place: directories, links, and a file where the way ends too early. -/
def loadWay (fs : FileSystem) (place : String) : IO FileSystem := do
  let mut fs := fs
  let mut way := ""
  for name in (Path.parse place).names do
    way := way ++ "/" ++ name
    let path := (← IO.currentDir) / way
    if !(fs.locate (Path.parse way)).isOk && (← path.pathExists) then
      match (← path.symlinkMetadata).type with
      | .dir => fs := put fs way .dir
      | .file => fs := put fs way (.file [])
      | .symlink =>
        let target ← IO.FS.realPath path
        if ← target.isDir then fs := put fs target.toString .dir
        fs := put fs way (.link target.toString)
      | .other => fs := fs
  return fs

/-- Adds the repository marks at and above a place. -/
partial def loadMarks (fs : FileSystem) (place : String) : IO FileSystem := do
  let fs := put fs place .dir
  let path := (← IO.currentDir) / place
  let fs := if ← (path / ".git").pathExists then put fs (place ++ "/.git") .dir else fs
  match path.parent with
  | some above => if above == path then return fs else loadMarks fs above.toString
  | none => return fs

/-- The nearest place at or above `place` that has a repository mark, or `place` itself. -/
def repositoryOf (fs : FileSystem) (place : String) : String :=
  match fs.findRoot (Path.parse place) with
  | .ok root => root.path.text
  | .error _ => place

/-- The part of the file system that a request can reach from the working directory. -/
def reachable (here : String) (request : Request) : IO FileSystem := do
  let fs : FileSystem := { workingDir := (Path.parse here).names.reverse }
  let given := match request with
    | .run _ (.discover (some root)) => [root]
    | .run _ (.scan file) => [file]
    | .run _ (.asserts file) => [file]
    | _ => []
  let marks ← loadMarks fs here
  let starts := (repositoryOf marks here :: given).map fun start =>
    if start.startsWith "/" then start else here ++ "/" ++ start
  let mut fs := fs
  for start in starts do
    let path := (← IO.currentDir) / start
    if ← path.pathExists then fs ← load fs (← IO.FS.realPath path).toString
  for start in starts do fs ← loadWay fs start
  return put (← loadMarks fs here) here .dir

end TestDiscovery.Program

open TestDiscovery in
def main (args : List String) : IO UInt32 := do
  let here := (← IO.currentDir).toString
  let outcome := runProgram (← Program.reachable here (Request.ofArgs args)) args
  IO.print outcome.stdout
  IO.eprint outcome.stderr
  return UInt32.ofNat outcome.exitCode
