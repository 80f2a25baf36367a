-- SUMMARY: Following paths through a file tree: locating, resolving, listing, reading.
import TestDiscovery.Files.Fault
import TestDiscovery.Files.Tree
import TestDiscovery.Yaml.Loader

/-!
# Following paths

A path is followed piece by piece from the root or from the working directory. A link is replaced by the place
that its target leads to. There are two readings: the strict one, for access to a file, wants every piece to be
there and every piece but the last to be a directory; the lenient one, for naming a place, goes on below a place
that is not there. Where the strict reading succeeds, both lead to the same place. A link that leads back to itself
is the end of both: it cannot be followed, and what comes behind it is named as it is written.

Systems set limits of their own: on the length of a path, on the number of links on one way, on who may look into a
directory, on how deep a walk may go. These are not described here: every way is short enough and open, and every walk
comes to its end.
-/

namespace TestDiscovery

namespace FileTree

-- ---------------------------------------------------------------------------
-- The strict reading
-- ---------------------------------------------------------------------------

/-- Follows the pieces from `here`; `enter` follows the target of a link. -/
def followWith (t : FileTree) (enter : Location → List String → Except Fault Location) (here : Location) :
    List String → Except Fault Location
  | [] => .ok here
  | piece :: rest =>
    if !t.isDirAt here then .error .notDirectory
    else if piece = "" ∨ piece = "." then followWith t enter here rest
    else if piece = ".." then followWith t enter here.tail rest
    else if maxNameLength < piece.utf8ByteSize then .error .nameTooLong
    else match t.get? (piece :: here) with
      | some (.link target) =>
        match enter (if (Path.parse target).isAbsolute then [] else here) (Path.pieces target) with
        | .ok place => followWith t enter place rest
        | .error e => .error e
      | some _ => followWith t enter (piece :: here) rest
      | none => .error .missing

/-- Follows the pieces from `here`, with links nested at most `depth` deep. -/
def followDepth (t : FileTree) : Nat → Location → List String → Except Fault Location
  | 0, _, _ => .error .linkLoop
  | depth + 1, here, pieces => t.followWith (t.followDepth depth) here pieces

/-- Follows the pieces from `here`. Links that are nested deeper than there are places lead back to
themselves. -/
def follow (t : FileTree) (here : Location) (pieces : List String) : Except Fault Location :=
  t.followDepth (t.entries.length + 1) here pieces

/-- What a name in a directory leads to, links followed. -/
def entry (t : FileTree) (dir : Location) (name : String) : Except Fault (Location × Node) :=
  match t.follow dir [name] with
  | .ok place =>
    match t.get? place with
    | some node => .ok (place, node)
    | none => .error .missing
  | .error fault => .error fault

-- ---------------------------------------------------------------------------
-- The lenient reading
-- ---------------------------------------------------------------------------

/-- A place by the way that a reading takes to it: from the root, or so many steps up from where it started and down
through names. -/
structure Spot where
  place : Location
  way : Option (Nat × List String) := none
deriving DecidableEq, Repr

namespace Spot

def root : Spot := { place := [] }

/-- Where a relative path starts. -/
def here (l : Location) : Spot := { place := l, way := some (0, []) }

def child (s : Spot) (name : String) : Spot :=
  { place := name :: s.place, way := s.way.map fun (steps, names) => (steps, name :: names) }

def up (s : Spot) : Spot :=
  { place := s.place.tail, way := s.way.map fun (steps, names) => if names = [] then (steps + 1, []) else (steps, names.tail) }

end Spot

/-- Where a lenient reading ends: at a spot, or at a link inside itself, with the pieces that were not read. -/
inductive Ending where
  | at (spot : Spot)
  | inside (link : Location) (unread : List String)
  /-- Nowhere: a link is met inside itself by longer and longer ways, up from the root again and again. -/
  | endless
deriving DecidableEq, Repr

/-- The ending with further pieces, none of which is read after a loop. Two slashes behind each other start again
from the root. -/
def Ending.andThen (e : Ending) (rest : List String) (go : Spot → Ending) : Ending :=
  match e, rest with
  | .at spot, _ => go spot
  | .inside _ _, "" :: piece :: rest => .inside [] (piece :: rest)
  | .inside link unread, rest => .inside link (unread ++ rest)
  | .endless, _ => .endless

/-- Reads the pieces from a spot; `enter` reads the target of the link at one. -/
def resolveWith (t : FileTree) (enter : Spot → Spot → List String → Ending) (s : Spot) : List String → Ending
  | [] => .at s
  | piece :: rest =>
    if piece = "" ∨ piece = "." then resolveWith t enter s rest
    else if piece = ".." then resolveWith t enter s.up rest
    else match t.get? (piece :: s.place) with
      | some (.link target) =>
        (enter (s.child piece) (if (Path.parse target).isAbsolute then .root else s) (Path.pieces target)).andThen rest
          fun reached => resolveWith t enter reached rest
      | _ => resolveWith t enter (s.child piece) rest

/-- Reads the pieces from a spot, inside the links `around`, and inside at most `depth` more. A link is known by the way
to it, so one that is met again by another way is read again. -/
def resolveDepth (t : FileTree) : Nat → List Spot → Spot → List String → Ending
  | 0, _, _, _ => .endless
  | depth + 1, around, s, pieces =>
    t.resolveWith (fun link start target =>
      if link ∈ around then .inside link.place [] else t.resolveDepth depth (link :: around) start target) s pieces

/-- Reads the pieces from a spot. Links inside each other are different spots. There is one way from the root to each
place, and one by each number of steps up from the start. -/
def resolve (t : FileTree) (s : Spot) (pieces : List String) : Ending :=
  t.resolveDepth ((t.entries.length + 1) * (s.place.length + 2)) [] s pieces

end FileTree

-- ---------------------------------------------------------------------------
-- Access by path
-- ---------------------------------------------------------------------------

/-- The path of a place. -/
def Location.path (l : Location) : Path := ⟨.root, l.reverse⟩

/-- The place that pieces lead to from another one if there are no links. -/
def Location.down (l : Location) (pieces : List String) : Location :=
  pieces.foldl (fun here piece =>
    if piece = "" ∨ piece = "." then here else if piece = ".." then here.tail else piece :: here) l

/-- A file tree, the directory that relative paths start from, and the loader for configurations. -/
structure FileSystem where
  tree : FileTree := {}
  workingDir : Location := []
  loader : Yaml.Loader := .library

namespace FileSystem

/-- Where a path starts. -/
def start (fs : FileSystem) (p : Path) : Location := if p.isAbsolute then [] else fs.workingDir

/-- Where a path starts, with the way there. -/
def spot (fs : FileSystem) (p : Path) : FileTree.Spot := if p.isAbsolute then .root else .here fs.workingDir

/-- The place that a path leads to, all links followed. -/
def locate (fs : FileSystem) (p : Path) : Except Fault Location := fs.tree.follow (fs.start p) p.names

/-- The place that a path names, whether it is there or not, all links followed. Behind a link inside itself the place
is named by what is written there, and is an error if it cannot be followed for its links. -/
def resolve (fs : FileSystem) (p : Path) : Except Location Location :=
  match fs.tree.resolve (fs.spot p) p.names with
  | .at s => .ok s.place
  | .endless => .error ((fs.start p).down p.names)
  | .inside link unread =>
    let place := link.down unread
    match fs.tree.follow [] place.reverse with
    | .error .linkLoop => .error place
    | _ => .ok place

/-- Whether a path leads to something. A name that no file can have is not just absent. -/
def pathExists (fs : FileSystem) (p : Path) : Except FileError Bool :=
  if p.hasNul then .ok false
  else match fs.locate p with
    | .ok _ => .ok true
    | .error .nameTooLong => .error ⟨.nameTooLong, p⟩
    | .error _ => .ok false

/-- The place of the directory that a path leads to. -/
def directory (fs : FileSystem) (p : Path) : Except FileError Location :=
  match fs.locate p with
  | .ok place => if fs.tree.isDirAt place then .ok place else .error ⟨.notDirectory, p⟩
  | .error fault => .error ⟨fault, p⟩

/-- The bytes of the file that a path leads to. -/
def read (fs : FileSystem) (p : Path) : Except FileError (List UInt8) :=
  match fs.locate p with
  | .ok place =>
    match fs.tree.get? place with
    | some (.file bytes) => .ok bytes
    | _ => .error ⟨.isDirectory, p⟩
  | .error fault => .error ⟨fault, p⟩

end FileSystem

-- ---------------------------------------------------------------------------
-- Changes
-- ---------------------------------------------------------------------------

namespace FileTree

/-- The tree with directories made below `here` for the names, as far as they are missing, and the last of them.
A link on the way is followed. -/
def makeDirs? (t : FileTree) (here : Location) : List String → Option (FileTree × Location)
  | [] => if t.isDirAt here then some (t, here) else none
  | name :: rest =>
    match t.follow here [name] with
    | .ok place => if t.isDirAt place then t.makeDirs? place rest else none
    | .error .missing => (t.insert? here name .dir).bind fun t => t.makeDirs? (name :: here) rest
    | .error _ => none

end FileTree

namespace FileSystem

/-- The system with a new directory, and with the directories above it. -/
def makeDir? (fs : FileSystem) (p : Path) : Option FileSystem :=
  (fs.tree.makeDirs? (fs.start p) p.names).map fun (tree, _) => { fs with tree }

/-- The system with a new link, and with the directories above it. -/
def makeLink? (fs : FileSystem) (p : Path) (target : String) : Option FileSystem :=
  (fs.tree.makeDirs? (fs.start p) p.names.dropLast).bind fun (tree, parent) =>
    (tree.insert? parent p.name (.link target)).map fun tree => { fs with tree }

/-- The system after a file has been written at a place: a file that was there is replaced. -/
def writeAt? (fs : FileSystem) (tree : FileTree) (bytes : List UInt8) : Location → Option FileSystem
  | [] => none
  | name :: parent =>
    let tree := match tree.get? (name :: parent) with
      | some (.file _) => tree.remove (name :: parent)
      | _ => tree
    (tree.insert? parent name (.file bytes)).map fun tree => { fs with tree }

/-- The system after a file has been written, with the directories above it. A link at its end is followed. -/
def writeFile? (fs : FileSystem) (p : Path) (bytes : List UInt8) : Option FileSystem :=
  (fs.tree.makeDirs? (fs.start p) p.names.dropLast).bind fun (tree, parent) =>
    match tree.resolve { place := parent } [p.name] with
    | .at s => fs.writeAt? tree bytes s.place
    | _ => none

/-- The system without what stands at a path, and all below it. A link at its end is removed itself. -/
def remove? (fs : FileSystem) (p : Path) : Option FileSystem :=
  match fs.locate { p with names := p.names.dropLast } with
  | .ok parent => some { fs with tree := fs.tree.remove (p.name :: parent) }
  | .error _ => none

end FileSystem

end TestDiscovery
