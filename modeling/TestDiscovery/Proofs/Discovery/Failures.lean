-- SUMMARY: Which failures can come from each part of discovery.
import TestDiscovery.Discovery.Tests
import TestDiscovery.Proofs.Outcome

/-!
# Failures of discovery

Looking up places, walking directories and asking for relative paths fail for the places alone. A missing repository is
reported by the search for it, the configuration fails in reading it, and a source fails where a single file is asked
for: in a whole repository a source that cannot be read is passed over.
-/

namespace TestDiscovery

/-- A failure to find or to use a place. -/
def Failure.OfPlace : Failure → Prop
  | inaccessible _ | nulInPath | linkLoop _ => True
  | _ => False

/-- A failure that no source has a part in. -/
def Failure.OfRepository : Failure → Prop
  | noFile _ | unsupported _ | undecodable _ => False
  | _ => True

theorem Failure.OfPlace.ofRepository {f : Failure} (h : f.OfPlace) : f.OfRepository := by
  cases f <;> first | exact h | exact trivial

namespace FileSystem

variable {fs : FileSystem} {p root file : Path} {o : Options}

/-! ## Places -/

theorem hasPath_failsOnly : FailsOnly Failure.OfPlace (fs.hasPath p) := by
  unfold hasPath
  cases fs.pathExists p <;> trivial

theorem placeOf_failsOnly : FailsOnly Failure.OfPlace (fs.placeOf p) := by
  unfold placeOf
  refine Yields.ite (fun _ => trivial) fun _ => ?_
  cases fs.resolve p <;> trivial

theorem directoryAt_failsOnly : FailsOnly Failure.OfPlace (fs.directoryAt p) := by
  unfold directoryAt
  refine Yields.ite (fun _ => trivial) fun _ => ?_
  cases fs.directory p <;> trivial

theorem relativePath_failsOnly : FailsOnly Failure.OfPlace (fs.relativePath file root) := by
  unfold relativePath
  refine Yields.ite (fun _ => trivial) fun _ => ?_
  refine placeOf_failsOnly.bind fun place => ?_
  refine placeOf_failsOnly.bind fun top => ?_
  cases namesBelow? top place <;> trivial

/-! ## The repository -/

theorem nearestRepository_failsOnly (place : Location) : FailsOnly Failure.OfPlace (fs.nearestRepository place) := by
  induction place with
  | nil => exact hasPath_failsOnly.bind fun _ => trivial
  | cons name parent ih =>
    refine hasPath_failsOnly.bind fun found => ?_
    exact Yields.ite (fun _ => trivial) fun _ => ih

theorem findRoot_failsOnly :
    FailsOnly (fun f => f.OfPlace ∨ f = .noRepository p) (fs.findRoot p) := by
  unfold findRoot
  have hplace : FailsOnly (fun f => f.OfPlace ∨ f = .noRepository p) (fs.placeOf p) :=
    placeOf_failsOnly.mono (fun _ => .inl) fun _ => id
  have hnearest (place : Location) : FailsOnly (fun f => f.OfPlace ∨ f = .noRepository p) (fs.nearestRepository place) :=
    (nearestRepository_failsOnly place).mono (fun _ => .inl) fun _ => id
  refine hplace.bind fun place => (hnearest place).bind fun root => ?_
  cases root with
  | some root => trivial
  | none => exact .inr rfl

/-- Without a given root the repository of the working directory may be missing. -/
theorem rootOr_failsOnly (root : Option Path) :
    FailsOnly (fun f => f.OfPlace ∨ f = .noRepository (Location.path fs.workingDir)) (fs.rootOr root) := by
  cases root with
  | some root => trivial
  | none => exact findRoot_failsOnly.map fun _ _ => trivial

theorem loadOptions_failsOnly :
    FailsOnly (fun f => f.OfPlace ∨ ∃ cause, f = .configuration cause) (fs.loadOptions root) := by
  unfold loadOptions
  have hfile : FailsOnly (fun f => f.OfPlace ∨ ∃ cause, f = .configuration cause)
      (fs.hasPath (root.child Options.fileName)) := hasPath_failsOnly.mono (fun _ => .inl) fun _ => id
  refine hfile.bind fun found => Yields.ite (fun _ => ?_) fun _ => trivial
  cases fs.read (root.child Options.fileName) with
  | error e => trivial
  | ok bytes =>
    refine Yields.mapError ?_
    cases Options.ofBytes fs.loader bytes with
    | ok o => trivial
    | error cause => exact .inr ⟨cause, rfl⟩

/-! ## Sources of a repository -/

-- Whether a path is that of a source makes no difference here, and takes long to unfold.
seal isSource


theorem walk_failsOnly : FailsOnly Failure.OfPlace (fs.walk o root) := by
  unfold walk
  exact placeOf_failsOnly.bind fun _ => directoryAt_failsOnly.bind fun _ => trivial

/-- A source that cannot be read is no failure. -/
theorem discoverSource_failsOnly : FailsOnly Failure.OfPlace (fs.discoverSource o root file) := by
  unfold discoverSource
  generalize isSource o file = source
  refine Yields.ite (fun _ => trivial) fun _ => ?_
  cases fs.readSource file with
  | error e => trivial
  | ok text => exact relativePath_failsOnly.bind fun _ => trivial

theorem discoverFound_failsOnly (before : Discovery) (found : List (Except FileError Path)) :
    FailsOnly (fun e => e.failure.OfPlace) (fs.discoverFound o root before found) := by
  induction found generalizing before with
  | nil => exact FailsOnly.ok before
  | cons entry rest ih =>
    cases entry with
    | error e =>
      have hplace : Failure.OfPlace (.inaccessible e) := trivial
      exact hplace
    | ok file =>
      unfold discoverFound
      have hsource : FailsOnly Failure.OfPlace (fs.discoverSource o root file) := discoverSource_failsOnly
      cases hfound : fs.discoverSource o root file with
      | ok found => exact ih (before.append found)
      | error failure => exact hsource.of_error hfound

/-- With root and options given, only places can fail. -/
theorem discoverTests_failsOnly :
    FailsOnly (fun e => e.failure.OfPlace) (fs.discoverTests (some root) (some o)) := by
  have hwalk : FailsOnly Failure.OfPlace (fs.walk o root) := walk_failsOnly
  have hstart : fs.startDiscovery (some root) (some o) = fs.walk o root >>= fun w => pure (root, o, w) := rfl
  unfold discoverTests
  rw [hstart]
  cases h : fs.walk o root with
  | ok w => exact discoverFound_failsOnly {} w.found
  | error failure => exact hwalk.of_error h

/-! ## A single source -/

/-- A single source fails for its place or as a text. -/
theorem readSource_failsOnly :
    FailsOnly (fun f => f = .nulInPath ∨ (∃ e, f = .inaccessible e) ∨ ∃ cause, f = .undecodable cause)
      (fs.readSource p) := by
  unfold readSource
  refine Yields.ite (fun _ => .inl rfl) fun _ => ?_
  cases fs.read p with
  | error e => exact .inr (.inl ⟨e, rfl⟩)
  | ok bytes =>
    dsimp only
    cases Text.Utf8.decode bytes with
    | error cause => exact .inr (.inr ⟨cause, rfl⟩)
    | ok text => trivial

end FileSystem

end TestDiscovery
