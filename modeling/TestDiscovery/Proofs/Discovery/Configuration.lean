-- SUMMARY: Which configurations set their options, which leave the defaults, and which stop discovery.
import TestDiscovery.Command.Run
import TestDiscovery.Proofs.Discovery.Failures
import TestDiscovery.Proofs.Files.Following
import TestDiscovery.Proofs.Yaml.Data
import TestDiscovery.Proofs.Yaml.Document

/-!
# Configurations that stop discovery

A configuration that is not there, cannot be read, or is refused by the loader leaves all options at their defaults. Two
things stop discovery: a link of the configuration's name to a name that no file can have, and a configuration on which
the loader breaks down, when it reads the document or when it writes one of the directories in it. This holds for every
loader. The one of this library does not break down on a modest text.
-/

namespace TestDiscovery

open Yaml (Atom Breakdown Document Item Loader lookupText)

namespace Options

/-! ## The section for discovery -/

/-- The section for discovery in a document: the mapping under its key, or an empty one where the key is absent. -/
inductive HasSection (d : Document) : List (Atom × Nat) → Prop where
  | given {pairs part : List (Atom × Nat)} {id : Nat} (hroot : d.rootValue? = some (.dict pairs))
      (hkey : lookupText pairs "discovery" = some id) (hpart : d.value? id = some (.dict part)) : HasSection d part
  | absent {pairs : List (Atom × Nat)} (hroot : d.rootValue? = some (.dict pairs))
      (hkey : lookupText pairs "discovery" = none) : HasSection d []

variable {loader : Loader} {d : Document} {part : List (Atom × Nat)}

theorem ofDocument_of_hasSection (h : HasSection d part) : ofDocument loader d = ofSection loader d part := by
  unfold ofDocument
  cases h with
  | given hroot hkey hpart => simp only [hroot, hkey, hpart]
  | absent hroot hkey => simp only [hroot, hkey]

theorem ofDocument_of_no_section (h : ∀ part, ¬ HasSection d part) : ofDocument loader d = .ok {} := by
  unfold ofDocument
  cases hroot : d.rootValue? with
  | none => rfl
  | some v =>
    cases v with
    | dict pairs =>
      dsimp only
      cases hkey : lookupText pairs "discovery" with
      | none => exact absurd (.absent hroot hkey) (h [])
      | some id =>
        dsimp only
        cases hpart : d.value? id with
        | none => rfl
        | some v =>
          cases v with
          | dict part => exact absurd (.given hroot hkey hpart) (h part)
          | _ => rfl
    | _ => rfl

/-! ## Directories that cannot be written -/

/-- What a section lists under the key of the directories, if it has the key and there is a list. -/
def dirItems? (d : Document) (part : List (Atom × Nat)) : Option (List Item) :=
  (lookupText part "exclude_dirs").bind d.list?

/-- Some directory in a section is not written: the first one of these fails with an error. -/
def WritingFails (loader : Loader) (d : Document) (part : List (Atom × Nat)) (e : Yaml.Error) : Prop :=
  ∃ before item after, dirItems? d part = some (before ++ item :: after) ∧
    (∀ x ∈ before, ∃ text, loader.write d x = .ok text) ∧ loader.write d item = .error e

theorem excludeDirsOf_eq_error_iff {e : Yaml.Error} :
    excludeDirsOf loader d part = some (.error e) ↔ WritingFails loader d part e := by
  unfold excludeDirsOf WritingFails dirItems?
  cases lookupText part "exclude_dirs" with
  | none => simp
  | some id =>
    cases hlist : d.list? id with
    | none => simp [hlist]
    | some items => simp [hlist, mapM_eq_error_iff]

/-- The loader of this library writes every directory, or refuses it. -/
theorem not_writingFails_breakdown (cause : Breakdown) : ¬ WritingFails .library d part (.breakdown cause) := by
  rintro ⟨-, item, -, -, -, hwrite⟩
  exact (Document.itemText_writes item).failsOnly.of_error hwrite

theorem ofSection_eq_error_iff {e : Yaml.Error} : ofSection loader d part = .error e ↔ WritingFails loader d part e := by
  rw [← excludeDirsOf_eq_error_iff]
  unfold ofSection
  split <;> simp [*]

theorem ofDocument_eq_error_iff {e : Yaml.Error} :
    ofDocument loader d = .error e ↔ ∃ part, HasSection d part ∧ WritingFails loader d part e := by
  by_cases hsection : ∃ part, HasSection d part
  · constructor
    · intro h
      obtain ⟨part, hpart⟩ := hsection
      rw [ofDocument_of_hasSection hpart] at h
      exact ⟨part, hpart, ofSection_eq_error_iff.1 h⟩
    · rintro ⟨part, hpart, hfails⟩
      rw [ofDocument_of_hasSection hpart]
      exact ofSection_eq_error_iff.2 hfails
  · rw [ofDocument_of_no_section (not_exists.1 hsection)]
    constructor
    · intro h
      cases h
    · rintro ⟨part, hpart, -⟩
      exact absurd ⟨part, hpart⟩ hsection

/-! ## Bytes -/

/-- The loader breaks down on a configuration: on the whole of it, or on a directory in its section. -/
inductive BreaksDown (loader : Loader) (bytes : List UInt8) (cause : Breakdown) : Prop where
  | loading (h : loader.load bytes = .error (.breakdown cause))
  | writing {d : Document} {part : List (Atom × Nat)} (hload : loader.load bytes = .ok d) (hpart : HasSection d part)
      (h : WritingFails loader d part (.breakdown cause))

/-- The options in the bytes of a configuration, with the defaults where they are refused. -/
def taken (loader : Loader) (bytes : List UInt8) : Options :=
  match (loader.load bytes).bind (ofDocument loader) with
  | .ok o => o
  | .error _ => {}

variable {bytes : List UInt8}

theorem ofBytes_eq_error_iff {cause : Breakdown} :
    ofBytes loader bytes = .error cause ↔ BreaksDown loader bytes cause := by
  have hbytes : ofBytes loader bytes = .error cause ↔
      (loader.load bytes).bind (ofDocument loader) = .error (.breakdown cause) := by
    unfold ofBytes
    split <;> simp [*]
  rw [hbytes]
  cases hload : loader.load bytes with
  | error e =>
    constructor
    · intro h
      cases h
      exact .loading hload
    · rintro (h | ⟨h, -, -⟩)
      · cases hload.symm.trans h
        rfl
      · cases hload.symm.trans h
  | ok d =>
    refine ofDocument_eq_error_iff.trans ⟨fun ⟨part, hpart, h⟩ => .writing hload hpart h, ?_⟩
    rintro (h | ⟨h, hpart, hfails⟩)
    · cases hload.symm.trans h
    · cases hload.symm.trans h
      exact ⟨_, hpart, hfails⟩

theorem ofBytes_of_not_breaksDown (h : ∀ cause, ¬ BreaksDown loader bytes cause) :
    ofBytes loader bytes = .ok (taken loader bytes) := by
  cases hbytes : ofBytes loader bytes with
  | error cause => exact absurd (ofBytes_eq_error_iff.1 hbytes) (h cause)
  | ok o =>
    unfold ofBytes at hbytes
    unfold taken
    split at hbytes <;> simp_all

/-- The loader of this library breaks down on no modest text, and on none of the directories in it. -/
theorem not_breaksDown_of_modest {text : List Char} (hdecode : Text.Utf8.decode bytes = .ok text)
    (h : Yaml.IsModest (Text.unifyNewlines text)) (cause : Breakdown) : ¬ BreaksDown .library bytes cause := by
  have hload : Loader.library.load bytes = Document.ofText (Text.unifyNewlines text) := by
    change Document.ofBytes bytes = _
    rw [Document.ofBytes, hdecode]
  rintro (hbreaks | ⟨-, -, hfails⟩)
  · exact (Document.ofText_failsOnly h).of_error (hload.symm.trans hbreaks)
  · exact not_writingFails_breakdown cause hfails

end Options

/-! ## The configuration of a repository -/

namespace FileSystem

variable {fs : FileSystem} {root : Path}

/-- The path of the configuration in a root. -/
def configPath (root : Path) : Path := root.child Options.fileName

/-- The bytes of the configuration of a repository, if it is there and can be read. -/
def configBytes? (fs : FileSystem) (root : Path) : Option (List UInt8) :=
  match fs.pathExists (configPath root) with
  | .ok true => (fs.read (configPath root)).toOption
  | _ => none

/-- The options that a repository sets: the defaults where there is no configuration that can be read, or a refused one. -/
def configured (fs : FileSystem) (root : Path) : Options := (fs.configBytes? root).elim {} (Options.taken fs.loader)

/-- What stops loading the options of a repository: its configuration leads to a name that no file can have, or the loader
breaks down on it. -/
inductive StopsLoading (fs : FileSystem) (root : Path) : Failure → Prop where
  | overlong (hnul : (configPath root).hasNul = false) (h : fs.locate (configPath root) = .error .nameTooLong) :
      StopsLoading fs root (.inaccessible ⟨.nameTooLong, configPath root⟩)
  | breaksDown {bytes : List UInt8} {cause : Breakdown} (hread : fs.configBytes? root = some bytes)
      (h : Options.BreaksDown fs.loader bytes cause) : StopsLoading fs root (.configuration cause)

theorem pathExists_eq_error_iff {p : Path} {e : FileError} :
    fs.pathExists p = .error e ↔ p.hasNul = false ∧ fs.locate p = .error .nameTooLong ∧ e = ⟨.nameTooLong, p⟩ := by
  unfold pathExists
  cases p.hasNul with
  | true => simp
  | false =>
    cases fs.locate p with
    | ok place => simp
    | error fault => cases fault <;> simp [eq_comm]

/-- The options of a repository come from the bytes of its configuration, unless it cannot even be told to be there. -/
theorem loadOptions_eq (fs : FileSystem) (root : Path) :
    fs.loadOptions root = match fs.pathExists (configPath root) with
      | .error e => .error (.inaccessible e)
      | .ok _ => (fs.configBytes? root).elim (.ok {}) fun bytes =>
        (Options.ofBytes fs.loader bytes).mapError .configuration := by
  unfold loadOptions hasPath configBytes?
  rw [← configPath]
  dsimp only
  cases fs.pathExists (configPath root) with
  | error e => rfl
  | ok found =>
    cases found with
    | false => rfl
    | true => cases fs.read (configPath root) <;> rfl

theorem loadOptions_of_configBytes? {bytes : List UInt8} (h : fs.configBytes? root = some bytes) :
    fs.loadOptions root = (Options.ofBytes fs.loader bytes).mapError .configuration := by
  have hexists : fs.pathExists (configPath root) = .ok true := by
    unfold configBytes? at h
    split at h
    · assumption
    · cases h
  rw [loadOptions_eq, hexists, h]
  rfl

theorem loadOptions_eq_error_iff {f : Failure} : fs.loadOptions root = .error f ↔ fs.StopsLoading root f := by
  rw [loadOptions_eq]
  cases hexists : fs.pathExists (configPath root) with
  | error e =>
    obtain ⟨hnul, hlocate, rfl⟩ := pathExists_eq_error_iff.1 hexists
    constructor
    · intro h
      cases h
      exact .overlong hnul hlocate
    · rintro (_ | ⟨hread, -⟩)
      · rfl
      · simp [configBytes?, hexists] at hread
  | ok found =>
    have hlocate : ¬ ((configPath root).hasNul = false ∧ fs.locate (configPath root) = .error .nameTooLong) := by
      rintro ⟨hnul, hlocate⟩
      cases hexists.symm.trans (pathExists_eq_error_iff.2 ⟨hnul, hlocate, rfl⟩)
    dsimp only
    cases hbytes : fs.configBytes? root with
    | none =>
      constructor
      · intro h
        cases h
      · rintro (⟨hnul, hlong⟩ | ⟨hread, -⟩)
        · exact absurd ⟨hnul, hlong⟩ hlocate
        · cases hbytes.symm.trans hread
    | some bytes =>
      constructor
      · intro h
        cases hoptions : Options.ofBytes fs.loader bytes with
        | ok o => simp [hoptions, Except.mapError] at h
        | error cause =>
          simp only [Option.elim_some, hoptions, Except.mapError, Except.error.injEq] at h
          subst h
          exact .breaksDown hbytes (Options.ofBytes_eq_error_iff.1 hoptions)
      · rintro (⟨hnul, hlong⟩ | ⟨hread, hbreaks⟩)
        · exact absurd ⟨hnul, hlong⟩ hlocate
        · cases hbytes.symm.trans hread
          rw [Option.elim_some, Options.ofBytes_eq_error_iff.2 hbreaks]
          rfl

theorem loadOptions_of_not_stopsLoading (h : ∀ f, ¬ fs.StopsLoading root f) :
    fs.loadOptions root = .ok (fs.configured root) := by
  have hloads : ∃ o, fs.loadOptions root = .ok o := by
    cases hoptions : fs.loadOptions root with
    | ok o => exact ⟨o, rfl⟩
    | error f => exact absurd (loadOptions_eq_error_iff.1 hoptions) (h f)
  obtain ⟨o, ho⟩ := hloads
  rw [loadOptions_eq] at ho ⊢
  unfold configured
  cases hexists : fs.pathExists (configPath root) with
  | error e =>
    rw [hexists] at ho
    cases ho
  | ok found =>
    cases hbytes : fs.configBytes? root with
    | none => rfl
    | some bytes =>
      have hbreaks (cause : Breakdown) : ¬ Options.BreaksDown fs.loader bytes cause := fun hbreaks =>
        h _ (.breaksDown hbytes hbreaks)
      simp [Options.ofBytes_of_not_breaksDown hbreaks, Except.mapError]

/-- With the loader of this library a modest configuration stops nothing. -/
theorem loadOptions_of_modest {bytes : List UInt8} {text : List Char} (hloader : fs.loader = .library)
    (hbytes : fs.configBytes? root = some bytes) (hdecode : Text.Utf8.decode bytes = .ok text)
    (h : Yaml.IsModest (Text.unifyNewlines text)) : fs.loadOptions root = .ok (fs.configured root) := by
  have hbreaks (cause : Breakdown) : ¬ Options.BreaksDown fs.loader bytes cause := by
    rw [hloader]
    exact Options.not_breaksDown_of_modest hdecode h cause
  rw [loadOptions_of_configBytes? hbytes, Options.ofBytes_of_not_breaksDown hbreaks, configured, hbytes]
  rfl

/-! ## The commands -/

/-- A failure that is not for the configuration. -/
def NotForConfiguration (f : Failure) : Prop := ∀ cause, f ≠ .configuration cause

theorem NotForConfiguration.of_ofPlace {f : Failure} (h : f.OfPlace) : NotForConfiguration f := by
  rintro cause rfl
  exact h

theorem rootOr_notForConfiguration (given : Option Path) : FailsOnly NotForConfiguration (fs.rootOr given) := by
  refine (rootOr_failsOnly given).mono (fun f hf => ?_) fun _ => id
  rcases hf with hplace | rfl
  · exact .of_ofPlace hplace
  · exact fun cause h => by cases h

theorem readSource_notForConfiguration (p : Path) : FailsOnly NotForConfiguration (fs.readSource p) := by
  refine readSource_failsOnly.mono (fun f hf => ?_) fun _ => id
  rintro cause rfl
  rcases hf with hf | ⟨_, hf⟩ | ⟨_, hf⟩ <;> cases hf

theorem discoverFile_notForConfiguration {o : Options} (file : String) :
    FailsOnly NotForConfiguration (fs.discoverFile file (some root) (some o)) := by
  have hplaces {f : Failure} : f.OfPlace → NotForConfiguration f := .of_ofPlace
  have hfound : FailsOnly NotForConfiguration (fs.hasPath (root.join (Path.parse file))) :=
    hasPath_failsOnly.mono (fun _ => hplaces) fun _ => id
  have hrun : fs.discoverFile file (some root) (some o) = fs.hasPath (root.join (Path.parse file)) >>= fun found =>
      if !found then .error (.noFile file)
      else if !isSource o (root.join (Path.parse file)) then .error (.unsupported file)
      else fs.scanFile o root (root.join (Path.parse file)) := rfl
  rw [hrun]
  generalize root.join (Path.parse file) = path at hfound
  refine Yields.bind hfound fun found _ => Yields.ite (fun _ cause h => by cases h) fun _ => ?_
  refine Yields.ite (fun _ cause h => by cases h) fun _ => ?_
  refine Yields.bind (readSource_notForConfiguration path) fun text _ => ?_
  exact Yields.bind (relativePath_failsOnly.mono (fun _ => hplaces) fun _ => id) fun _ _ => trivial

/-- With a root the commands load its options first, and have them from then on. -/
theorem discoverIn_of_rootOr {given : Option String} (h : fs.rootOr (given.map Path.parse) = .ok root) :
    Command.discoverIn fs given = match fs.loadOptions root with
      | .ok o => fs.discoverTests (some root) (some o)
      | .error f => .error { failure := f } := by
  cases hload : fs.loadOptions root <;> simp only [Command.discoverIn, h, hload]

theorem discoverFile_of_rootOr {file : String} (h : fs.rootOr none = .ok root) :
    fs.discoverFile file none none = fs.loadOptions root >>= fun o => fs.discoverFile file (some root) (some o) := by
  unfold discoverFile
  rw [h]
  rfl

theorem discoverIn_eq_configuration_iff {given : Option String} {cause : Breakdown} :
    (∃ e, Command.discoverIn fs given = .error e ∧ e.failure = .configuration cause) ↔
      ∃ root, fs.rootOr (given.map Path.parse) = .ok root ∧ fs.StopsLoading root (.configuration cause) := by
  cases hroot : fs.rootOr (given.map Path.parse) with
  | error f =>
    have hfails : Command.discoverIn fs given = .error { failure := f } := by
      unfold Command.discoverIn
      rw [hroot]
    constructor
    · rintro ⟨e, he, hcause⟩
      cases hfails.symm.trans he
      exact absurd hcause ((rootOr_notForConfiguration _).of_error hroot cause)
    · rintro ⟨root, h, -⟩
      cases h
  | ok root =>
    rw [discoverIn_of_rootOr hroot]
    simp only [Except.ok.injEq, exists_eq_left', ← loadOptions_eq_error_iff]
    cases fs.loadOptions root with
    | error f => simp
    | ok o =>
      constructor
      · rintro ⟨e, he, hcause⟩
        exact absurd hcause (NotForConfiguration.of_ofPlace (discoverTests_failsOnly.of_error he) cause)
      · intro h
        cases h

theorem discoverFile_eq_configuration_iff {file : String} {cause : Breakdown} :
    fs.discoverFile file none none = .error (.configuration cause) ↔
      ∃ root, fs.rootOr none = .ok root ∧ fs.StopsLoading root (.configuration cause) := by
  cases hroot : fs.rootOr none with
  | error f =>
    have hfails : fs.discoverFile file none none = .error f := by
      unfold discoverFile
      rw [hroot]
      rfl
    rw [hfails]
    constructor
    · intro h
      cases h
      exact absurd rfl ((rootOr_notForConfiguration _).of_error hroot cause)
    · rintro ⟨root, h, -⟩
      cases h
  | ok root =>
    rw [discoverFile_of_rootOr hroot]
    simp only [Except.ok.injEq, exists_eq_left', ← loadOptions_eq_error_iff]
    cases fs.loadOptions root with
    | error f => simp [bind, Except.bind]
    | ok o =>
      constructor
      · intro h
        exact absurd rfl ((discoverFile_notForConfiguration file).of_error h cause)
      · intro h
        cases h

/-- A configuration stops loading exactly where it leads to a name that no file can have, or the loader breaks down on it;
else the options are those that it sets, and the defaults where it is not there, cannot be read, or is refused. Commands
with a root stop where loading stops, and else run with these options. They fail for a configuration in no other way. -/
theorem configuration_stops_iff (fs : FileSystem) :
    (∀ root, (∀ f, fs.loadOptions root = .error f ↔ fs.StopsLoading root f) ∧
      ((∀ f, ¬ fs.StopsLoading root f) → fs.loadOptions root = .ok (fs.configured root))) ∧
    (∀ given root, fs.rootOr (given.map Path.parse) = .ok root →
      (∀ f, fs.StopsLoading root f → Command.discoverIn fs given = .error { failure := f }) ∧
      ((∀ f, ¬ fs.StopsLoading root f) →
        Command.discoverIn fs given = fs.discoverTests (some root) (some (fs.configured root)))) ∧
    (∀ file root, fs.rootOr none = .ok root →
      (∀ f, fs.StopsLoading root f → fs.discoverFile file none none = .error f) ∧
      ((∀ f, ¬ fs.StopsLoading root f) →
        fs.discoverFile file none none = fs.discoverFile file (some root) (some (fs.configured root)))) ∧
    (∀ given cause, (∃ e, Command.discoverIn fs given = .error e ∧ e.failure = .configuration cause) ↔
      ∃ root, fs.rootOr (given.map Path.parse) = .ok root ∧ fs.StopsLoading root (.configuration cause)) ∧
    ∀ file cause, fs.discoverFile file none none = .error (.configuration cause) ↔
      ∃ root, fs.rootOr none = .ok root ∧ fs.StopsLoading root (.configuration cause) := by
  refine ⟨fun root => ⟨fun f => loadOptions_eq_error_iff, loadOptions_of_not_stopsLoading⟩, ?_, ?_,
    fun given cause => discoverIn_eq_configuration_iff, fun file cause => discoverFile_eq_configuration_iff⟩
  · intro given root hroot
    rw [discoverIn_of_rootOr hroot]
    refine ⟨fun f hf => ?_, fun hgoes => ?_⟩
    · rw [loadOptions_eq_error_iff.2 hf]
    · rw [loadOptions_of_not_stopsLoading hgoes]
  · intro file root hroot
    rw [discoverFile_of_rootOr hroot]
    refine ⟨fun f hf => ?_, fun hgoes => ?_⟩
    · rw [loadOptions_eq_error_iff.2 hf]
      rfl
    · rw [loadOptions_of_not_stopsLoading hgoes]
      rfl

/-! ### An empty number -/

/-- A repository whose configuration is an empty text with the tag of whole numbers. -/
def taggedEmptyNumber : FileSystem where
  tree := .shallow [(".git", .dir), (".ablunit", .file [0x21, 0x21, 0x69, 0x6E, 0x74, 0x20, 0x27, 0x27, 0x0A])]
    (by decide) (by decide)

/-- A repository without a configuration. -/
def unconfigured : FileSystem where
  tree := .shallow [(".git", .dir)] (by decide) (by decide)

/-- The loader breaks down on the one and stops discovery, and on the other nothing does. -/
theorem configuration_stops_iff_taggedEmptyNumber :
    taggedEmptyNumber.StopsLoading (Path.parse "/") (.configuration .emptyNumber) ∧
      Command.discoverIn taggedEmptyNumber (some "/") = .error { failure := .configuration .emptyNumber } ∧
      (∀ f, ¬ unconfigured.StopsLoading (Path.parse "/") f) ∧
      Command.discoverIn unconfigured (some "/") = unconfigured.discoverTests (some (Path.parse "/")) (some {}) := by
  have hbytes : taggedEmptyNumber.configBytes? (Path.parse "/") = some (Text.Utf8.encode "!!int ''\n".toList) := by
    decide +kernel
  have hload : taggedEmptyNumber.loader.load (Text.Utf8.encode "!!int ''\n".toList) = .error .emptyNumber := by
    decide +kernel
  have hstops : taggedEmptyNumber.StopsLoading (Path.parse "/") (.configuration .emptyNumber) :=
    .breaksDown hbytes (.loading hload)
  obtain ⟨-, hstopped, -⟩ := configuration_stops_iff taggedEmptyNumber
  obtain ⟨hloads, hruns, -⟩ := configuration_stops_iff unconfigured
  have hgoes (f : Failure) : ¬ unconfigured.StopsLoading (Path.parse "/") f := by
    rw [← (hloads (Path.parse "/")).1 f]
    rintro ⟨⟩
  exact ⟨hstops, (hstopped (some "/") (Path.parse "/") rfl).1 _ hstops, hgoes,
    (hruns (some "/") (Path.parse "/") rfl).2 hgoes⟩

/-- The value does not fit its tag, but the defaults are not taken: nothing is discovered. -/
theorem loadOptions_taggedEmptyNumber :
    taggedEmptyNumber.configBytes? (Path.parse "/") = some (Text.Utf8.encode "!!int ''\n".toList) ∧
      taggedEmptyNumber.loadOptions (Path.parse "/") = .error (.configuration .emptyNumber) ∧
      (runProgram taggedEmptyNumber ["discover", "/"]).exitCode = 2 := by
  decide +kernel

end FileSystem

end TestDiscovery
