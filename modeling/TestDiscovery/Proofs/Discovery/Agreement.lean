-- SUMMARY: Discovery in a repository gives what discovery in each of its files gives.
import TestDiscovery.Proofs.Discovery.SourceKinds

/-!
# Agreement

A repository is searched file by file, and a single file can be asked for by its path. Both read and scan a file that
the walk has found in the same way. So the tests of a repository are those of its files one after the other, and a
file that alone gives an error gives a warning with the same error instead. There is a scanner for every such file.
-/

namespace TestDiscovery

/-! ## Warnings -/

/-- The warnings among events. -/
def warnings (events : List Event) : List Event := events.filter fun event => event.level = .warning

theorem warnings_append (a b : List Event) : warnings (a ++ b) = warnings a ++ warnings b := List.filter_append ..

/-- The scanner logs no warning. -/
theorem warnings_scan (o : Options) (path text : String) : warnings (scan o path text).events = [] := by
  unfold scan
  split
  · rfl
  · cases hbody : Scan.suiteBody o text.toList with
    | anchored range name members => rfl
    | headless members =>
      simp only [Scan.SuiteBody.events]
      split <;> rfl
  · rfl
  · rfl
  · rfl

namespace FileSystem

open Walk

/-! ## A source on its own -/

/-- The entities that discovery in one file gives, none if it gives an error. -/
def entitiesAlone (fs : FileSystem) (o : Options) (root f : Path) : List Entity :=
  match fs.discoverFile f.text (some root) (some o) with
  | .ok found => found.entities
  | .error _ => []

/-- The warning that stands for the error of discovery in one file. -/
def warningAlone? (fs : FileSystem) (o : Options) (root f : Path) : Option Event :=
  match fs.discoverFile f.text (some root) (some o) with
  | .ok _ => none
  | .error e => some (.unreadable f.text e.message)

/-- A path that the walk has found: it is spelled in full, and leads to a file with a fitting suffix and these bytes. -/
structure SourceAt (fs : FileSystem) (o : Options) (root f : Path) (bytes : List UInt8) : Prop where
  spelled : Path.parse f.text = f
  absolute : f.isAbsolute = true
  clean : f.hasNul = false
  fits : isSource o f = true
  holds : ∃ place, fs.locate f = .ok place ∧ fs.tree.get? place = some (.file bytes)
  relative : ∃ path, fs.relativePath f root = .ok path

section

variable {fs : FileSystem} {o : Options} {root f : Path} {bytes : List UInt8}

theorem hasPath_of_locate {place : Location} (hlocate : fs.locate f = .ok place) : fs.hasPath f = .ok true := by
  unfold FileSystem.hasPath pathExists
  simp [hasNul_of_locate hlocate, hlocate, Except.mapError]

theorem SourceAt.hasPath (h : fs.SourceAt o root f bytes) : fs.hasPath f = .ok true := by
  obtain ⟨place, hlocate, -⟩ := h.holds
  exact hasPath_of_locate hlocate

/-- The bytes of a file are read by every path that leads to it. -/
theorem read_of_locate {place : Location} (hlocate : fs.locate f = .ok place)
    (hget : fs.tree.get? place = some (.file bytes)) : fs.read f = .ok bytes := by
  simp [FileSystem.read, hlocate, hget]

theorem readSource_of_locate {place : Location} (hclean : f.hasNul = false) (hlocate : fs.locate f = .ok place)
    (hget : fs.tree.get? place = some (.file bytes)) :
    fs.readSource f = match Text.Utf8.decode bytes with
      | .error e => .error (.undecodable e)
      | .ok text => .ok (String.ofList (Text.unifyNewlines text)) := by
  unfold FileSystem.readSource
  simp only [hclean, read_of_locate hlocate hget]
  cases Text.Utf8.decode bytes <;> rfl

theorem SourceAt.read (h : fs.SourceAt o root f bytes) : fs.read f = .ok bytes := by
  obtain ⟨place, hlocate, hget⟩ := h.holds
  exact read_of_locate hlocate hget

theorem SourceAt.readSource (h : fs.SourceAt o root f bytes) :
    fs.readSource f = match Text.Utf8.decode bytes with
      | .error e => .error (.undecodable e)
      | .ok text => .ok (String.ofList (Text.unifyNewlines text)) := by
  obtain ⟨place, hlocate, hget⟩ := h.holds
  exact readSource_of_locate h.clean hlocate hget

/-- An argument that leads to something with a fitting suffix is neither missing nor unsupported: the file is scanned. -/
theorem discoverFile_of_hasPath {given : String} (hpath : fs.hasPath (root.join (Path.parse given)) = .ok true)
    (hfits : isSource o (root.join (Path.parse given)) = true) :
    fs.discoverFile given (some root) (some o) = fs.scanFile o root (root.join (Path.parse given)) := by
  unfold FileSystem.discoverFile
  simp [rootOr, optionsOr, hpath, hfits, bind, Except.bind]

/-- Discovery in the file scans it. -/
theorem SourceAt.discoverFile (h : fs.SourceAt o root f bytes) :
    fs.discoverFile f.text (some root) (some o) = fs.scanFile o root f := by
  have hjoin : root.join (Path.parse f.text) = f := by simp [Path.join, h.spelled, h.absolute]
  have hpath : fs.hasPath (root.join (Path.parse f.text)) = .ok true := by
    rw [hjoin]
    exact h.hasPath
  have hfits : isSource o (root.join (Path.parse f.text)) = true := by
    rw [hjoin]
    exact h.fits
  rw [discoverFile_of_hasPath hpath hfits, hjoin]

/-- Discovery in the file fails only where its bytes are no text. -/
theorem SourceAt.discoverFile_eq_error_iff (h : fs.SourceAt o root f bytes) {e : Failure} :
    fs.discoverFile f.text (some root) (some o) = .error e ↔
      ∃ cause, Text.Utf8.decode bytes = .error cause ∧ e = .undecodable cause := by
  obtain ⟨path, hpath⟩ := h.relative
  rw [h.discoverFile]
  unfold scanFile
  rw [h.readSource]
  cases hdecode : Text.Utf8.decode bytes with
  | error cause => simp [bind, Except.bind, eq_comm]
  | ok text => simp [hpath, bind, Except.bind, pure, Except.pure]

/-- The entities of a scan carry the path. -/
theorem path_of_mem_entities {path : String} {s : Scan} : ∀ e ∈ s.entities path, e.path = path := by
  intro e he
  obtain ⟨finding, -, rfl⟩ := List.mem_map.1 he
  exact finding.toEntity_path path

/-- In a repository a source that cannot be read gives a warning. -/
theorem discoverSource_of_unreadable {e : Failure} (hfits : isSource o f = true) (hread : fs.readSource f = .error e) :
    fs.discoverSource o root f = .ok { events := [.unreadable f.text e.message] } := by
  simp [FileSystem.discoverSource, hfits, hread]

/-- In a repository a source gives what its scan finds, and logs how much that is. -/
theorem discoverSource_of_text {text path : String} (hfits : isSource o f = true) (hread : fs.readSource f = .ok text)
    (hpath : fs.relativePath f root = .ok path) :
    fs.discoverSource o root f =
      .ok ⟨(scan o path text).entities path,
        (scan o path text).events ++ [.scanned path ((scan o path text).entities path).length]⟩ := by
  simp [FileSystem.discoverSource, hfits, hread, hpath, bind, Except.bind, pure, Except.pure, Discovery.ofScan]

/-- In a repository the file gives the same entities, and a warning for an error. -/
theorem SourceAt.discoverSource (h : fs.SourceAt o root f bytes) :
    ∃ found, fs.discoverSource o root f = .ok found ∧ found.entities = fs.entitiesAlone o root f ∧
      warnings found.events = (fs.warningAlone? o root f).toList := by
  obtain ⟨path, hpath⟩ := h.relative
  unfold entitiesAlone warningAlone?
  rw [h.discoverFile]
  unfold scanFile
  cases hread : fs.readSource f with
  | error e => exact ⟨_, discoverSource_of_unreadable h.fits hread, rfl, rfl⟩
  | ok text =>
    have hscan : warnings (scan o path text).events = [] := warnings_scan ..
    have hcount (n : Nat) : warnings [.scanned path n] = [] := rfl
    refine ⟨_, discoverSource_of_text h.fits hread hpath, ?_, ?_⟩
    · simp [hpath, bind, Except.bind, pure, Except.pure, Discovery.ofScan]
    · rw [warnings_append, hscan, hcount]
      simp [hpath, bind, Except.bind, pure, Except.pure]

/-! ## A walk through sources -/

/-- The tests in one file of a repository, none if discovery in it fails. -/
def testsIn (fs : FileSystem) (o : Options) (root f : Path) : Discovery :=
  (fs.discoverSource o root f).toOption.getD {}

theorem testsIn_of_discoverSource {found : Discovery} (h : fs.discoverSource o root f = .ok found) :
    fs.testsIn o root f = found := by
  rw [testsIn, h]
  rfl

/-- Discovery goes through what a walk has found up to a fault, and adds what each file gives. -/
theorem discoverFound_eq_append (before : Discovery) {rs : List (Except FileError Path)}
    (h : ∀ f, .ok f ∈ rs → ∃ found, fs.discoverSource o root f = .ok found) :
    ∃ found : Discovery,
      found.entities = before.entities ++ (yielded rs).1.flatMap (fun f => (fs.testsIn o root f).entities) ∧
      found.events = before.events ++ (yielded rs).1.flatMap (fun f => (fs.testsIn o root f).events) ∧
      fs.discoverFound o root before rs =
        (unlessFault found (yielded rs).2).mapError fun e => ⟨.inaccessible e, found.events⟩ := by
  induction rs generalizing before with
  | nil => exact ⟨before, by simp [yielded], by simp [yielded], rfl⟩
  | cons r rs ih =>
    cases r with
    | error e => exact ⟨before, by simp [yielded], by simp [yielded], rfl⟩
    | ok f =>
      obtain ⟨here, hhere⟩ := h f List.mem_cons_self
      obtain ⟨found, hentities, hevents, hrest⟩ := ih (before.append here) fun g hg => h g (List.mem_cons_of_mem _ hg)
      refine ⟨found, ?_, ?_, ?_⟩
      · rw [hentities]
        simp [Discovery.append, yielded, testsIn_of_discoverSource hhere]
      · rw [hevents]
        simp [Discovery.append, yielded, testsIn_of_discoverSource hhere]
      · unfold discoverFound
        rw [hhere]
        exact hrest

/-- Between sources this is what each file gives alone, and a warning for each error. -/
theorem discoverFound_spec (before : Discovery) {rs : List (Except FileError Path)}
    (h : ∀ f, .ok f ∈ rs → ∃ bytes, fs.SourceAt o root f bytes) :
    ∃ found : Discovery, found.entities = before.entities ++ (yielded rs).1.flatMap (fs.entitiesAlone o root) ∧
      warnings found.events = warnings before.events ++ (yielded rs).1.filterMap (fs.warningAlone? o root) ∧
      fs.discoverFound o root before rs =
        (unlessFault found (yielded rs).2).mapError fun e => ⟨.inaccessible e, found.events⟩ := by
  have htests : ∀ f ∈ (yielded rs).1, (fs.testsIn o root f).entities = fs.entitiesAlone o root f ∧
      warnings (fs.testsIn o root f).events = (fs.warningAlone? o root f).toList := by
    intro f hf
    obtain ⟨bytes, hsource⟩ := h f (ok_mem_of_mem_yielded hf)
    obtain ⟨here, hhere, hentities, hwarnings⟩ := hsource.discoverSource
    rw [testsIn_of_discoverSource hhere]
    exact ⟨hentities, hwarnings⟩
  obtain ⟨found, hentities, hevents, hfound⟩ := discoverFound_eq_append before fun f hf =>
    have ⟨_, hsource⟩ := h f hf
    have ⟨here, hhere, _⟩ := hsource.discoverSource
    ⟨here, hhere⟩
  refine ⟨found, ?_, ?_, hfound⟩
  · rw [hentities, List.flatMap_congr fun f hf => (htests f hf).1]
  · rw [hevents, warnings_append]
    congr 1
    rw [warnings, List.filter_flatMap, List.filterMap_eq_flatMap_toList]
    exact List.flatMap_congr fun f hf => (htests f hf).2

end

/-! ## The walk of a repository -/

section

variable {fs : FileSystem} {o : Options} {root : Path} {top : Location}

/-- Discovery in a repository goes through what the walk of its root has found. -/
theorem discoverTests_of_walk {w : Walk} (h : fs.walk o root = .ok w) :
    fs.discoverTests (some root) (some o) = fs.discoverFound o root {} w.found := by
  unfold discoverTests startDiscovery
  simp only [rootOr, optionsOr, h, bind, Except.bind, pure, Except.pure]

theorem discoverTests_of_walk_error {e : Failure} (h : fs.walk o root = .error e) :
    fs.discoverTests (some root) (some o) = .error { failure := e } := by
  unfold discoverTests startDiscovery
  simp only [rootOr, optionsOr, h, bind, Except.bind]

/-- The paths of entered directories are spelled like that of the root. -/
theorem normal_of_entered {p : Path} {d : Location} (hnormal : root.Normal) (h : fs.directoryAt root = .ok top)
    (hentered : (p, d) ∈ (ofDirectory fs.tree o root top).entered) : p.Normal ∧ p.anchor = root.anchor := by
  obtain ⟨-, -, hdir⟩ := directoryAt_eq_ok_iff.1 h
  apply invariant_ofDirectory (P := fun p _ => p.Normal ∧ p.anchor = root.anchor) hdir ⟨hnormal, rfl⟩ ?_ hentered
  intro i hi hname place _
  exact ⟨hi.1.child (.of_isFileName (FileTree.isFileName_of_mem_names hname)), hi.2⟩

/-- What the walk of an absolute root finds are sources. -/
theorem sourceAt_of_ok_mem_found {f : Path} (hnormal : root.Normal) (habsolute : root.isAbsolute = true)
    (h : fs.directoryAt root = .ok top) (hf : .ok f ∈ (ofDirectory fs.tree o root top).found) :
    ∃ bytes, fs.SourceAt o root f bytes := by
  obtain ⟨p, d, name, rfl, hentered, hsource⟩ := entry_of_ok_mem_found (directoryAt_eq_ok_iff.1 h).2.2 hf
  obtain ⟨place, bytes, hleads⟩ := hsource.leads
  obtain ⟨hlocated, hclean⟩ := locate_of_entered h hentered
  obtain ⟨hp, hanchor⟩ := normal_of_entered hnormal h hentered
  obtain ⟨hfollow, hget⟩ := FileTree.follow_of_entry hleads
  obtain ⟨rel, hrel, -⟩ := relativePath_of_entered h hentered hsource.listed hleads
  have hname : FileName name :=
    .of_isFileName (FileTree.isFileName_of_mem_names (FileTree.mem_names_iff.2 hsource.listed))
  refine ⟨bytes, ?_⟩
  constructor
  case spelled => exact Path.parse_text (hp.child hname)
  case absolute => simpa [Path.isAbsolute, hanchor] using habsolute
  case clean => exact Path.hasNul_child hclean hname
  case fits => rw [isSource, Path.name_child, hsource.suffix]
  case holds => exact ⟨place, (locate_child name hlocated).trans hfollow, hget⟩
  case relative => exact ⟨rel.text, hrel⟩

/-- Discovery in an absolute root gives what discovery gives in each file that the walk yields, in the order of the
walk: its entities, or else a warning with its error. Such an error says that the bytes are no text. -/
theorem discoverTests_eq_discoverFile (s : String) (habsolute : (Path.parse s).isAbsolute = true) :
    (∀ e, fs.walk o (Path.parse s) = .error e →
      fs.sourceFiles o (Path.parse s) = .error e ∧
      fs.discoverTests (some (Path.parse s)) (some o) = .error { failure := e }) ∧
    ∀ w files fault, fs.walk o (Path.parse s) = .ok w → yielded w.found = (files, fault) →
      fs.sourceFiles o (Path.parse s) = (unlessFault files fault).mapError .inaccessible ∧
      (∀ f ∈ files, isSource o f = true ∧ ∃ bytes, fs.read f = .ok bytes ∧
        ∀ e, fs.discoverFile f.text (some (Path.parse s)) (some o) = .error e ↔
          ∃ cause, Text.Utf8.decode bytes = .error cause ∧ e = .undecodable cause) ∧
      ∃ found : Discovery,
        fs.discoverTests (some (Path.parse s)) (some o) =
          (unlessFault found fault).mapError (fun e => ⟨.inaccessible e, found.events⟩) ∧
        found.entities = files.flatMap (fs.entitiesAlone o (Path.parse s)) ∧
        warnings found.events = files.filterMap (fs.warningAlone? o (Path.parse s)) := by
  generalize hroot : Path.parse s = root at *
  have hnormal : root.Normal := hroot ▸ Path.normal_parse s
  constructor
  · intro e he
    constructor
    · unfold sourceFiles
      simp [he, bind, Except.bind]
    · unfold discoverTests startDiscovery
      simp [rootOr, optionsOr, he, bind, Except.bind]
  · intro w files fault hw hyielded
    obtain ⟨top, hdirectory, rfl⟩ := directoryAt_of_walk hw
    have hsources := fun f => sourceAt_of_ok_mem_found (o := o) (f := f) hnormal habsolute hdirectory
    obtain ⟨found, hentities, hwarnings, hfound⟩ := discoverFound_spec {} hsources
    rw [hyielded] at hentities hwarnings hfound
    refine ⟨?_, ?_, found, ?_, ?_, ?_⟩
    · rw [sourceFiles_of_directoryAt o hdirectory, hyielded]
    · intro f hf
      obtain ⟨bytes, hsource⟩ := hsources f (ok_mem_of_mem_yielded (by rwa [hyielded]))
      exact ⟨hsource.fits, bytes, hsource.read, fun e => hsource.discoverFile_eq_error_iff⟩
    · rw [discoverTests_of_walk hw]
      exact hfound
    · simpa using hentities
    · simpa [warnings] using hwarnings

end

/-- A root with two sources, of which the first one is no text. -/
def broken : FileSystem where
  tree := .shallow [("a.p", .file [0xff]), ("b.p", .file (Text.Utf8.encode "@Test.\nprocedure b:".toList))] (by decide)
    (by decide)

theorem discoverTests_eq_discoverFile_broken :
    (Path.parse "/").isAbsolute = true ∧ ∃ found,
      broken.discoverTests (some (Path.parse "/")) (some {}) = .ok found ∧
      found.entities = [{ kind := .procedure, name := "b", path := "b.p", range := ⟨⟨1, 10⟩, ⟨1, 1⟩⟩ }] ∧
      warnings found.events =
        [.unreadable "/a.p" "'utf-8' codec can't decode byte 0xff in position 0: invalid start byte"] := by
  have habsolute : (Path.parse "/").isAbsolute = true := rfl
  have hroot : broken.directoryAt (Path.parse "/") = .ok [] := rfl
  have hsorted : ["a.p", "b.p"].Pairwise fun a b => decide (a ≤ b) = true := by decide
  have hnames : broken.tree.names [] = ["a.p", "b.p"] := List.mergeSort_of_pairwise hsorted
  have hyielded : yielded (ofDirectory broken.tree {} (Path.parse "/") []).found =
      ([⟨.root, ["a.p"]⟩, ⟨.root, ["b.p"]⟩], none) := by
    simp only [ofDirectory, within, hnames]
    rfl
  obtain ⟨-, -, found, hfound, hentities, hwarnings⟩ :=
    (discoverTests_eq_discoverFile "/" habsolute).2 _ _ _ (walk_of_directoryAt {} hroot) hyielded
  refine ⟨habsolute, found, hfound, ?_, ?_⟩
  · rw [hentities]
    decide +kernel
  · rw [hwarnings]
    decide +kernel

end FileSystem

end TestDiscovery
