-- SUMMARY: The root of a repository, and the paths of files in it.
import TestDiscovery.Discovery.Access

/-!
# Repositories

A repository is a directory with an entry `.git`. The repository of a place is the nearest one at or above it.
-/

namespace TestDiscovery.FileSystem

/-- The nearest repository at or above a place. -/
def nearestRepository (fs : FileSystem) : Location → Except Failure (Option Location)
  | [] => do return if ← fs.hasPath (Location.path [".git"]) then some [] else none
  | name :: parent => do
    if ← fs.hasPath (Location.path (".git" :: name :: parent)) then return some (name :: parent)
    else fs.nearestRepository parent

/-- The root of the repository that a path lies in. -/
def findRoot (fs : FileSystem) (start : Path) : Except Failure Location := do
  match ← fs.nearestRepository (← fs.placeOf start) with
  | some root => return root
  | none => .error (.noRepository start)

/-- A given root, or the root of the repository of the working directory. -/
def rootOr (fs : FileSystem) : Option Path → Except Failure Path
  | some root => .ok root
  | none => Location.path <$> fs.findRoot (Location.path fs.workingDir)

/-- The names that lead from one place down to another. -/
def namesBelow? (root place : Location) : Option (List String) :=
  if root.isSuffixOf place then some (place.take (place.length - root.length)).reverse else none

/-- The path of a file as seen from the root; as it is given if it lies elsewhere. -/
def relativePath (fs : FileSystem) (file root : Path) : Except Failure String :=
  if file.hasNul || root.hasNul then .ok file.text
  else do
    let place ← fs.placeOf file
    let top ← fs.placeOf root
    match namesBelow? top place with
    | some names => return Path.text { names }
    | none => return file.text

end TestDiscovery.FileSystem
