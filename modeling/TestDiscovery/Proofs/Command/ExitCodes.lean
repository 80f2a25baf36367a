-- SUMMARY: What a command writes and its exit code, by the kind of its failure.
import TestDiscovery.Command.Run
import TestDiscovery.Proofs.Command.Request
import TestDiscovery.Proofs.Discovery.Failures
import TestDiscovery.Proofs.Files.Following

/-!
# Exit codes

A command either writes a report and exits with zero, or writes nothing but a message to the error stream. What the exit
code says is a matter of the kind of the failure and not of the command: one for a missing repository, for a missing
file and for a value that cannot be used, two for anything else. Two commands are apart. To `asserts` a file that cannot
be read is an expected failure whatever the reason. And `discover` tells only a missing repository apart.
-/

namespace TestDiscovery

/-! ## Kinds of failures -/

/-- The kinds of failures that the exit codes are about. -/
inductive Failure.Family where
  /-- There is no repository. -/
  | repository
  /-- Something that is asked for is not there. -/
  | missing
  /-- A path, a suffix or a text cannot be used. -/
  | value
  /-- The file system refuses something that is there. -/
  | system
  /-- Anything else. -/
  | other
deriving DecidableEq, Repr

namespace Failure

def family : Failure → Family
  | noRepository _ => .repository
  | noFile _ => .missing
  | unsupported _ | undecodable _ | nulInPath => .value
  | inaccessible e => if e.fault = .missing then .missing else .system
  | linkLoop _ | configuration _ => .other

def Family.code : Family → Nat
  | repository | missing | value => 1
  | system | other => 2

end Failure

namespace Command

/-- The exit code of a command for a failure. -/
def code : Command → Failure → Nat
  | discover _ => discoverCode
  | scan _ => scanCode
  | asserts _ => assertsCode

theorem scanCode_eq (f : Failure) : scanCode f = f.family.code := by
  cases f with
  | inaccessible e =>
    unfold scanCode Failure.family
    dsimp only
    split <;> rfl
  | _ => rfl

/-- A search through a repository tells a missing one apart. -/
theorem discoverCode_eq {f : Failure} (hmissing : f.family ≠ .missing) (hvalue : f.family ≠ .value) :
    discoverCode f = f.family.code := by
  cases f with
  | inaccessible e =>
    unfold Failure.family at hmissing ⊢
    dsimp only at hmissing ⊢
    split at hmissing
    · exact absurd rfl hmissing
    · next hfault =>
      rw [if_neg hfault]
      rfl
  | noFile _ => exact absurd rfl hmissing
  | unsupported _ | undecodable _ | nulInPath => exact absurd rfl hvalue
  | noRepository _ | linkLoop _ | configuration _ => rfl

/-! ## Reports -/

/-- The report of a command and what it logs, or its failure. -/
def result (fs : FileSystem) : Command → Except Interruption (String × List Event)
  | discover root => (fun found => (Report.entities found.entities, found.events)) <$> discoverIn fs root
  | scan file =>
    ((fun found => (Report.entities found.entities, found.events)) <$> fs.discoverFile file none none).mapError
      fun failure => { failure }
  | asserts file =>
    ((fun text => (Report.assertCalls (Grammar.assertCalls text), [])) <$> fs.readSource (Path.parse file)).mapError
      fun failure => { failure }

theorem run_eq (fs : FileSystem) (verbose : Bool) (c : Command) :
    c.run fs verbose =
      match c.result fs with
      | .ok (report, events) => .success report (Outcome.logged verbose events)
      | .error e => .failure (c.code e.failure) e.failure (Outcome.logged verbose e.events) := by
  cases c with
  | discover root =>
    unfold run result
    dsimp only
    cases discoverIn fs root <;> rfl
  | scan file =>
    unfold run result
    dsimp only
    cases fs.discoverFile file none none <;> rfl
  | asserts file =>
    unfold run result
    dsimp only
    cases fs.readSource (Path.parse file) <;> rfl

/-! ## Failures by command -/

variable {fs : FileSystem} {e : Interruption} {file : String} {root : Option String}

/-- A single file is not read for its place, or as a text. -/
theorem family_of_asserts (h : (asserts file).result fs = .error e) :
    e.failure.family ∈ [.missing, .value, .system] ∧ assertsCode e.failure = 1 := by
  unfold result at h
  dsimp only at h
  cases hread : fs.readSource (Path.parse file) with
  | ok text =>
    rw [hread] at h
    cases h
  | error f =>
    rw [hread] at h
    cases h
    rcases FileSystem.readSource_failsOnly.of_error hread with rfl | ⟨fault, rfl⟩ | ⟨cause, rfl⟩
    · exact ⟨by decide, rfl⟩
    · refine ⟨?_, rfl⟩
      unfold Failure.family
      dsimp only
      split <;> decide
    · have hvalue : Failure.Family.value ∈ [Failure.Family.missing, .value, .system] := by decide
      exact ⟨hvalue, rfl⟩

/-- No source stops the search through a repository. -/
theorem ofRepository_of_discover (h : (discover root).result fs = .error e) : e.failure.OfRepository := by
  have hall : FailsOnly (fun e => e.failure.OfRepository) (discoverIn fs root) := by
    unfold discoverIn
    cases hroot : fs.rootOr (root.map Path.parse) with
    | error f =>
      rcases (FileSystem.rootOr_failsOnly _).of_error hroot with hplace | rfl
      · exact hplace.ofRepository
      · trivial
    | ok top =>
      dsimp only
      cases hoptions : fs.loadOptions top with
      | error f =>
        rcases FileSystem.loadOptions_failsOnly.of_error hoptions with hplace | ⟨cause, rfl⟩
        · exact hplace.ofRepository
        · trivial
      | ok o => exact FileSystem.discoverTests_failsOnly.mono (fun _ => Failure.OfPlace.ofRepository) fun _ => id
  unfold result at h
  dsimp only at h
  cases hresult : discoverIn fs root with
  | ok found =>
    rw [hresult] at h
    cases h
  | error f =>
    rw [hresult] at h
    cases h
    exact hall.of_error hresult

end Command

/-! ## Messages -/

/-- A text without escape characters has no terminal codes. -/
theorem Text.dropCodes_eq_self {s : List Char} (h : '\x1B' ∉ s) : Text.dropCodes s = s := by
  unfold Text.dropCodes
  induction s with
  | nil => rfl
  | cons c s ih =>
    rw [List.mem_cons, not_or] at h
    rw [Text.dropCodesFrom, if_neg (Ne.symm h.1), ih h.2]

/-- The line for a failure. -/
def Outcome.failureLine (f : Failure) : String := String.ofList (Text.dropCodes ("Error: " ++ f.message).toList) ++ "\n"

theorem Outcome.failureLine_eq {f : Failure} (h : '\x1B' ∉ f.message.toList) :
    Outcome.failureLine f = "Error: " ++ f.message ++ "\n" := by
  have hplain : '\x1B' ∉ ("Error: " ++ f.message).toList := by
    rw [String.toList_append, List.mem_append, not_or]
    exact ⟨by decide, h⟩
  rw [Outcome.failureLine, Text.dropCodes_eq_self hplain, String.ofList_toList]

/-! ## The program -/

/-- A command that is asked for writes its report and exits with zero, or it writes a message to the error stream, after
the log, and nothing else. The exit code of `scan` is that of the kind of the failure. So is that of `discover` where
nothing is missing and no value is wrong, and no source makes it fail. To `asserts` every failure is an expected one. -/
theorem runProgram_of_written {fs : FileSystem} {args : List String} {verbose : Bool} {c : Command}
    (h : Request.Written verbose c args) :
    (∀ report events, c.result fs = .ok (report, events) →
      runProgram fs args =
        { exitCode := 0, stdout := report ++ "\n", stderr := Outcome.logged verbose events }) ∧
    ∀ e, c.result fs = .error e →
      (runProgram fs args).stdout = "" ∧
      (runProgram fs args).stderr = Outcome.logged verbose e.events ++ Outcome.failureLine e.failure ∧
      ('\x1B' ∉ e.failure.message.toList → Outcome.failureLine e.failure = "Error: " ++ e.failure.message ++ "\n") ∧
      (∀ file, c = .scan file → (runProgram fs args).exitCode = e.failure.family.code) ∧
      (∀ root, c = .discover root →
        e.failure.OfRepository ∧
        (e.failure.family ≠ .missing → e.failure.family ≠ .value →
          (runProgram fs args).exitCode = e.failure.family.code)) ∧
      ∀ file, c = .asserts file →
        e.failure.family ∈ [.missing, .value, .system] ∧ (runProgram fs args).exitCode = 1 := by
  have hrun : runProgram fs args = c.run fs verbose := by
    unfold runProgram
    rw [Request.ofArgs_eq_run_iff.2 h]
  rw [hrun, c.run_eq fs verbose]
  constructor
  · intro report events hresult
    rw [hresult]
    rfl
  · intro e hresult
    rw [hresult]
    refine ⟨rfl, String.append_assoc .., Outcome.failureLine_eq, ?_, ?_, ?_⟩
    · rintro file rfl
      exact Command.scanCode_eq e.failure
    · rintro root rfl
      exact ⟨Command.ofRepository_of_discover hresult, Command.discoverCode_eq⟩
    · rintro file rfl
      exact Command.family_of_asserts hresult

/-- A repository with a directory that has the name of a class file. -/
def FileSystem.directoryNamed : FileSystem where
  tree := .shallow [(".git", .dir), ("d.cls", .dir)] (by decide) (by decide)

theorem runProgram_of_written_directoryNamed :
    Request.Written true (.asserts "d.cls") ["--verbose", "asserts", "--", "d.cls"] ∧
      (runProgram .directoryNamed ["--verbose", "asserts", "--", "d.cls"]).exitCode = 1 ∧
      (runProgram .directoryNamed ["--verbose", "asserts", "--", "d.cls"]).stdout = "" ∧
      (runProgram .directoryNamed ["--verbose", "asserts", "--", "d.cls"]).stderr =
        "Error: [Errno 21] Is a directory: 'd.cls'\n" := by
  have hwritten : Request.Written true (.asserts "d.cls") ["--verbose", "asserts", "--", "d.cls"] :=
    .verbose (.command (.ended ["d.cls"]))
  have hresult : (Command.asserts "d.cls").result .directoryNamed =
      .error ⟨.inaccessible ⟨.isDirectory, Path.parse "d.cls"⟩, []⟩ := rfl
  obtain ⟨hstdout, hstderr, -, -, -, hasserts⟩ :=
    (runProgram_of_written hwritten).2 _ hresult
  exact ⟨hwritten, (hasserts "d.cls" rfl).2, hstdout, hstderr.trans (by decide +kernel)⟩

/-- The same fault of the file system is expected by `asserts` and not by `scan`. -/
theorem exitCode_directoryNamed :
    (Command.asserts "d.cls").result .directoryNamed =
        .error ⟨.inaccessible ⟨.isDirectory, Path.parse "d.cls"⟩, []⟩ ∧
      (runProgram .directoryNamed ["asserts", "d.cls"]).exitCode = 1 ∧
      (Command.scan "d.cls").result .directoryNamed =
        .error ⟨.inaccessible ⟨.isDirectory, Path.parse "/d.cls"⟩, []⟩ ∧
      (runProgram .directoryNamed ["scan", "d.cls"]).exitCode = 2 := by
  refine ⟨rfl, rfl, rfl, rfl⟩

end TestDiscovery
