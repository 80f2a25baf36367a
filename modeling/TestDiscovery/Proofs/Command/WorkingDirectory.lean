-- SUMMARY: Commands that look for their repository themselves depend on the working directory only through its root.
import TestDiscovery.Proofs.Command.Request
import TestDiscovery.Command.Run
import TestDiscovery.Proofs.Discovery.RepositoryRoot

/-!
# The working directory

A relative path starts from the working directory, an absolute one does not. The root of a repository is an absolute
path, and all that a command reads from there on has a path that starts with it, or an absolute path that was given. So
two runs from different working directories in one repository give the same.
-/

namespace TestDiscovery

namespace Path

variable {p q : Path}

theorem isAbsolute_join (h : p.isAbsolute = true) : (p.join q).isAbsolute = true := by
  unfold join
  split
  · assumption
  · exact h

theorem isAbsolute_child (h : p.isAbsolute = true) (name : String) : (p.child name).isAbsolute = true := h

end Path

theorem Location.isAbsolute_path (l : Location) : l.path.isAbsolute = true := rfl

namespace FileSystem

/-- The same files, seen from another working directory. -/
def seenFrom (fs : FileSystem) (w : Location) : FileSystem := { fs with workingDir := w }

variable {fs : FileSystem} {w r : Location} {p root file : Path} {o : Options}

@[simp] theorem workingDir_seenFrom : (fs.seenFrom w).workingDir = w := rfl

@[simp] theorem loader_seenFrom : (fs.seenFrom w).loader = fs.loader := rfl

/-! ## Absolute paths -/

section

variable (h : p.isAbsolute = true)

include h

theorem start_seenFrom : (fs.seenFrom w).start p = fs.start p := by
  simp [start, h]

theorem locate_seenFrom : (fs.seenFrom w).locate p = fs.locate p := by
  rw [locate, start_seenFrom h]
  rfl

theorem placeOf_seenFrom : (fs.seenFrom w).placeOf p = fs.placeOf p := by
  have hspot : (fs.seenFrom w).spot p = fs.spot p := by simp [spot, h]
  unfold placeOf resolve
  rw [hspot, start_seenFrom h]
  rfl

theorem hasPath_seenFrom : (fs.seenFrom w).hasPath p = fs.hasPath p := by
  unfold hasPath pathExists
  rw [locate_seenFrom h]

theorem directoryAt_seenFrom : (fs.seenFrom w).directoryAt p = fs.directoryAt p := by
  unfold directoryAt directory
  rw [locate_seenFrom h]
  rfl

theorem read_seenFrom : (fs.seenFrom w).read p = fs.read p := by
  unfold read
  rw [locate_seenFrom h]
  rfl

theorem readSource_seenFrom : (fs.seenFrom w).readSource p = fs.readSource p := by
  unfold readSource
  rw [read_seenFrom h]

end

/-! ## A repository with an absolute root -/

theorem nearestRepository_seenFrom (place : Location) :
    (fs.seenFrom w).nearestRepository place = fs.nearestRepository place := by
  induction place with
  | nil =>
    unfold nearestRepository
    rw [hasPath_seenFrom (Location.isAbsolute_path _)]
  | cons name parent ih =>
    unfold nearestRepository
    rw [hasPath_seenFrom (Location.isAbsolute_path _), ih]

theorem findRoot_seenFrom (h : p.isAbsolute = true) : (fs.seenFrom w).findRoot p = fs.findRoot p := by
  unfold findRoot
  simp only [placeOf_seenFrom h, nearestRepository_seenFrom]

theorem loadOptions_seenFrom (h : root.isAbsolute = true) : (fs.seenFrom w).loadOptions root = fs.loadOptions root := by
  have hfile := Path.isAbsolute_child h Options.fileName
  unfold loadOptions
  simp only [hasPath_seenFrom hfile, read_seenFrom hfile, loader_seenFrom]

theorem relativePath_seenFrom (hfile : file.isAbsolute = true) (hroot : root.isAbsolute = true) :
    (fs.seenFrom w).relativePath file root = fs.relativePath file root := by
  unfold relativePath
  rw [placeOf_seenFrom hfile, placeOf_seenFrom hroot]

theorem walk_seenFrom (h : root.isAbsolute = true) : (fs.seenFrom w).walk o root = fs.walk o root := by
  unfold walk
  rw [placeOf_seenFrom h, directoryAt_seenFrom h]
  rfl

/-- What the walk of an absolute root finds has absolute paths. -/
theorem isAbsolute_of_ok_mem_found {found : Walk} (hroot : root.isAbsolute = true) (hwalk : fs.walk o root = .ok found)
    (hfile : .ok file ∈ found.found) : file.isAbsolute = true := by
  obtain ⟨top, hdirectory, rfl⟩ := directoryAt_of_walk hwalk
  have hdir := (directoryAt_eq_ok_iff.1 hdirectory).2.2
  obtain ⟨path, dir, name, rfl, hentered, -⟩ := Walk.entry_of_ok_mem_found hdir hfile
  have hpath : path.isAbsolute = true :=
    Walk.invariant_ofDirectory (P := fun path _ => path.isAbsolute = true) hdir hroot
      (fun i hi _ _ _ => Path.isAbsolute_child hi i.name) hentered
  exact Path.isAbsolute_child hpath name

/-! ## Tests in a repository -/

-- Whether a path is that of a source makes no difference here, and takes long to unfold.
seal isSource

theorem scanFile_seenFrom (hfile : file.isAbsolute = true) (hroot : root.isAbsolute = true) :
    (fs.seenFrom w).scanFile o root file = fs.scanFile o root file := by
  unfold scanFile
  rw [readSource_seenFrom hfile, relativePath_seenFrom hfile hroot]

theorem discoverSource_seenFrom (hfile : file.isAbsolute = true) (hroot : root.isAbsolute = true) :
    (fs.seenFrom w).discoverSource o root file = fs.discoverSource o root file := by
  unfold discoverSource
  rw [readSource_seenFrom hfile, relativePath_seenFrom hfile hroot]

theorem discoverFound_seenFrom (hroot : root.isAbsolute = true) (before : Discovery)
    {found : List (Except FileError Path)} (hfound : ∀ file, .ok file ∈ found → file.isAbsolute = true) :
    (fs.seenFrom w).discoverFound o root before found = fs.discoverFound o root before found := by
  induction found generalizing before with
  | nil => rfl
  | cons entry rest ih =>
    cases entry with
    | error e => rfl
    | ok file =>
      have hfile := hfound file List.mem_cons_self
      have hrest (found : Discovery) := ih found fun file hmem => hfound file (List.mem_cons_of_mem _ hmem)
      unfold discoverFound
      simp only [discoverSource_seenFrom hfile hroot, hrest]

theorem discoverTests_seenFrom (hroot : root.isAbsolute = true) :
    (fs.seenFrom w).discoverTests (some root) (some o) = fs.discoverTests (some root) (some o) := by
  cases hwalk : fs.walk o root with
  | ok found =>
    rw [discoverTests_of_walk hwalk, discoverTests_of_walk ((walk_seenFrom hroot).trans hwalk)]
    exact discoverFound_seenFrom hroot {} fun file hfile => isAbsolute_of_ok_mem_found hroot hwalk hfile
  | error e =>
    rw [discoverTests_of_walk_error hwalk, discoverTests_of_walk_error ((walk_seenFrom hroot).trans hwalk)]

/-! ## The root of the working directory -/

theorem rootOr_seenFrom (h : fs.findRoot w.path = .ok r) : (fs.seenFrom w).rootOr none = .ok r.path := by
  unfold rootOr
  rw [workingDir_seenFrom, findRoot_seenFrom (Location.isAbsolute_path w), h]
  rfl

/-- Where a root is found, a single file is looked for as if the root had been given. -/
theorem discoverFile_seenFrom (given : String) (h : fs.findRoot w.path = .ok r) :
    (fs.seenFrom w).discoverFile given none none = fs.discoverFile given (some r.path) none := by
  have hroot : r.path.isAbsolute = true := Location.isAbsolute_path r
  have hfile : (r.path.join (Path.parse given)).isAbsolute = true := Path.isAbsolute_join hroot
  unfold discoverFile
  rw [rootOr_seenFrom h]
  simp only [rootOr, optionsOr, bind, Except.bind, loadOptions_seenFrom hroot, hasPath_seenFrom hfile,
    scanFile_seenFrom hfile hroot]

end FileSystem

namespace Command

open FileSystem

variable {fs : FileSystem} {w w' r : Location} {c : Command}

/-- Where a root is found, its tests are looked for with its own options. -/
theorem discoverIn_seenFrom (h : fs.findRoot w.path = .ok r) :
    discoverIn (fs.seenFrom w) none =
      match fs.loadOptions r.path with
      | .ok o => fs.discoverTests (some r.path) (some o)
      | .error failure => .error { failure } := by
  have hroot : r.path.isAbsolute = true := Location.isAbsolute_path r
  unfold discoverIn
  cases hload : fs.loadOptions r.path with
  | ok o =>
    simp only [Option.map_none, rootOr_seenFrom h, loadOptions_seenFrom hroot, hload, discoverTests_seenFrom hroot]
  | error failure => simp only [Option.map_none, rootOr_seenFrom h, loadOptions_seenFrom hroot, hload]

/-- A command that looks for its repository itself: the root is not given. -/
def SeeksRoot : Command → Prop
  | discover none | scan _ => True
  | discover (some _) | asserts _ => False

/-- From two working directories in one repository such a command leaves the same behind. -/
theorem run_seenFrom (hc : c.SeeksRoot) (h : fs.findRoot w.path = .ok r) (h' : fs.findRoot w'.path = .ok r)
    (verbose : Bool) : c.run (fs.seenFrom w) verbose = c.run (fs.seenFrom w') verbose := by
  cases c with
  | discover root =>
    cases root with
    | none =>
      unfold run
      simp only [discoverIn_seenFrom h, discoverIn_seenFrom h']
    | some root => exact absurd hc id
  | scan file =>
    unfold run
    simp only [discoverFile_seenFrom file h, discoverFile_seenFrom file h']
  | asserts file => exact absurd hc id

end Command

/-! ## The root decides -/

open FileSystem in
/-- The search for a root gives the nearest place at or above the place of the start that has an entry `.git`, a file
or a directory. Its path leads to a directory, and that is the place itself unless the start names its place behind a link
inside itself. It says that there is no repository exactly if there is none on the whole way up. Both hold as far as the
entries can be examined: at the first place whose entry leads through a name that no file can have, the search fails
unless it has stopped before, and otherwise it fails only for a start that names no place. Arguments that give no root and
do not ask for `asserts` then lead to the same from all working directories with one root. -/
theorem root_decides (fs : FileSystem) :
    (∀ start r, fs.findRoot start = .ok r ↔ ∃ place, fs.placeOf start = .ok place ∧ fs.NearestRepository place r ∧
      ∀ q, q <:+ place → r <:+ q → ¬ fs.Unexaminable q) ∧
    (∀ start r, fs.findRoot start = .ok r → ∃ d, fs.directoryAt r.path = .ok d ∧ (fs.Straight start → d = r)) ∧
    (∀ start given, fs.findRoot start = .error (.noRepository given) ↔
      given = start ∧ ∃ place, fs.placeOf start = .ok place ∧
        ∀ q, q <:+ place → ¬ fs.IsRepository q ∧ ¬ fs.Unexaminable q) ∧
    (∀ start e, (∀ given, e ≠ .noRepository given) → (fs.findRoot start = .error e ↔
      fs.placeOf start = .error e ∨ ∃ place q, fs.placeOf start = .ok place ∧ q <:+ place ∧ fs.Unexaminable q ∧
        e = .inaccessible ⟨.nameTooLong, mark q⟩ ∧
        ∀ p, p <:+ place → q <:+ p → p ≠ q → ¬ fs.IsRepository p ∧ ¬ fs.Unexaminable p)) ∧
    ∀ w w' r, fs.findRoot w.path = .ok r → fs.findRoot w'.path = .ok r →
      ∀ args, (∀ verbose c, Request.Written verbose c args → Command.SeeksRoot c) →
        runProgram (fs.seenFrom w) args = runProgram (fs.seenFrom w') args := by
  refine ⟨fun start r => findRoot_eq_ok_iff, fun start r => directoryAt_of_findRoot,
    fun start given => findRoot_eq_noRepository_iff, ?_, ?_⟩
  · intro start e he
    rw [findRoot_eq_error_iff]
    simp only [he start, false_and, false_or, nearestRepository_eq_error_iff, exists_and_left]
  · intro w w' r h h' args hseeks
    unfold runProgram
    cases hrequest : Request.ofArgs args with
    | run verbose c =>
      exact Command.run_seenFrom (hseeks verbose c (Request.ofArgs_eq_run_iff.1 hrequest)) h h' verbose
    | _ => rfl

/-! ### A repository in a repository, and a link that cannot be followed -/

/-- A repository with a directory in it, and in that one a repository whose `.git` is a file. -/
def FileSystem.nested : FileSystem where
  tree := {
    entries := [([".git"], .dir), (["d"], .dir), (["e", "d"], .dir), ([".git", "e", "d"], .file [])]
    distinct := by decide
    placed := by
      intro e he
      simp only [List.mem_cons, List.not_mem_nil, or_false] at he
      rcases he with rfl | rfl | rfl | rfl
      · exact ⟨".git", [], rfl, by decide, .inl rfl⟩
      · exact ⟨"d", [], rfl, by decide, .inl rfl⟩
      · exact ⟨"e", ["d"], rfl, by decide, .inr (by simp)⟩
      · exact ⟨".git", ["e", "d"], rfl, by decide, .inr (by simp)⟩ }

open FileSystem in
theorem root_decides_nested :
    nested.NearestRepository ["d"] [] ∧ nested.NearestRepository ["e", "d"] ["e", "d"] ∧
      runProgram (nested.seenFrom ["d"]) ["--verbose", "scan", "d/a.p"] =
        runProgram (nested.seenFrom []) ["--verbose", "scan", "d/a.p"] := by
  obtain ⟨hroot, -, -, -, hruns⟩ := root_decides nested
  have htop : nested.findRoot (Location.path []) = .ok [] := rfl
  have houter : nested.findRoot (Location.path ["d"]) = .ok [] := rfl
  have hinner : nested.findRoot (Location.path ["e", "d"]) = .ok ["e", "d"] := rfl
  have hseeks : ∀ verbose c, Request.Written verbose c ["--verbose", "scan", "d/a.p"] → Command.SeeksRoot c := by
    intro verbose c hwritten
    have hrequest : Request.ofArgs ["--verbose", "scan", "d/a.p"] = .run true (.scan "d/a.p") := by decide
    cases hrequest.symm.trans (Request.ofArgs_eq_run_iff.2 hwritten)
    trivial
  obtain ⟨place, hplace, hnearest, -⟩ := (hroot _ _).1 houter
  obtain ⟨place', hplace', hnearest', -⟩ := (hroot _ _).1 hinner
  cases hplace
  cases hplace'
  exact ⟨hnearest, hnearest', hruns ["d"] [] [] houter htop _ hseeks⟩

/-- A directory whose `.git` is a link to a name that is one byte too long, in no repository. -/
def FileSystem.overlongMarked : FileSystem where
  tree := {
    entries := [(["s"], .dir), ([".git", "s"], .link (longName 256))]
    distinct := by decide
    placed := by
      intro e he
      simp only [List.mem_cons, List.not_mem_nil, or_false] at he
      rcases he with rfl | rfl
      · exact ⟨"s", [], rfl, by decide, .inl rfl⟩
      · exact ⟨".git", ["s"], rfl, by decide, .inr (by simp)⟩ }

namespace FileSystem

theorem unexaminable_overlongMarked : overlongMarked.Unexaminable ["s"] := by
  have hget : overlongMarked.tree.get? [".git", "s"] = some (.link (longName 256)) := rfl
  have hslash : '/' ∉ (longName 256).toList := by
    generalize 256 = length
    simp [longName, List.mem_replicate]
  have hlong : maxNameLength < (longName 256).utf8ByteSize := by
    rw [utf8ByteSize_longName]
    decide
  have hdir : overlongMarked.locate ⟨.root, ["s"]⟩ = .ok ["s"] := rfl
  refine ⟨by decide, (locate_child ".git" hdir).trans ?_⟩
  exact FileTree.follow_of_entry_nameTooLong (Walk.entry_of_overlong_link hget hslash hlong)

/-- The start names a place, and there is no repository at it or above it, but this is not what the search says. -/
theorem findRoot_overlongMarked :
    overlongMarked.placeOf ⟨.root, ["s"]⟩ = .ok ["s"] ∧ (∀ q, q <:+ ["s"] → ¬ overlongMarked.IsRepository q) ∧
      overlongMarked.findRoot ⟨.root, ["s"]⟩ = .error (.inaccessible ⟨.nameTooLong, ⟨.root, ["s", ".git"]⟩⟩) ∧
      overlongMarked.findRoot ⟨.root, ["s"]⟩ ≠ .error (.noRepository ⟨.root, ["s"]⟩) := by
  have hplace : overlongMarked.placeOf ⟨.root, ["s"]⟩ = .ok ["s"] := rfl
  have hlong : overlongMarked.Unexaminable ["s"] := unexaminable_overlongMarked
  have hroot : overlongMarked.locate (mark []) = .error .missing := rfl
  have hfails : overlongMarked.findRoot ⟨.root, ["s"]⟩ = .error (.inaccessible ⟨.nameTooLong, mark ["s"]⟩) := by
    refine findRoot_eq_error_iff.2 (.inr ⟨["s"], hplace, .inr (nearestRepository_eq_error_iff.2 ?_)⟩)
    refine ⟨["s"], List.suffix_rfl, hlong, rfl, fun p hp hs hne => ?_⟩
    exact absurd (hp.eq_of_length_le hs.length_le) hne
  refine ⟨hplace, fun q hq hrepository => ?_, hfails, by simp [hfails]⟩
  rcases List.suffix_cons_iff.1 hq with rfl | hq
  · exact hrepository.examinable hlong
  · obtain rfl := List.suffix_nil.1 hq
    obtain ⟨place, hlocate, -⟩ := hrepository
    cases hroot.symm.trans hlocate

end FileSystem

end TestDiscovery
