-- SUMMARY: The mode of ranges changes the end columns of headers, and nothing else that a scan finds or logs.
import TestDiscovery.Proofs.Scan.Beside

/-!
# End columns

Names in headers have two end columns. In the mode of old the range ends at the length of the name, as if the name stood
at the start of its line; otherwise it ends where the name does. Methods, members of suites and the suite for a file do
not follow the mode. A class is found in two ways, as a header and as a member of a suite, and only the header does.
-/

namespace TestDiscovery

namespace Scan

/-! ## Findings in both modes -/

/-- The finding stands for the name in a header: a procedure, a class of its own, or the class of a suite, but neither a
member of a suite nor the suite for the file. -/
def AtHeader (path : String) (suite : Bool) (f : Finding) : Prop :=
  f.kind = .procedure ∨ (f.kind = .testClass ∧ suite = false) ∨ (f.kind = .suite ∧ f ≠ fileSuite path)

/-- A finding in the mode of old and the same finding in the other mode. -/
structure SameButEnd (path : String) (suite : Bool) (old new : Finding) : Prop where
  kind : old.kind = new.kind
  name : old.name = new.name
  parent : old.parent = new.parent
  start : old.range.start = new.range.start
  stopLine : old.range.stop.line = new.range.stop.line
  header : AtHeader path suite old →
    old.range.stop.column = old.name.length ∧ new.range.stop.column = new.range.start.column + new.name.length
  elsewhere : ¬ AtHeader path suite old → old.range = new.range

variable {o : Options} {path : String} {suite : Bool} {f g : Finding} {n : Nat} {line name : List Char}

/-- What is not found at a header is found the same in both modes. -/
theorem SameButEnd.refl (h : ¬ AtHeader path suite f) : SameButEnd path suite f f :=
  ⟨rfl, rfl, rfl, rfl, rfl, fun hheader => absurd hheader h, fun _ => rfl⟩

/-- What is found at a header has the range of its name in each mode. -/
theorem SameButEnd.of_header (hkind : f.kind = g.kind) (hparent : f.parent = g.parent)
    (hname : f.name = String.ofList name) (hname' : g.name = String.ofList name) (hheader : AtHeader path suite f)
    (hold : f.range = headerRange { o with legacyRanges := true } n line name)
    (hnew : g.range = headerRange { o with legacyRanges := false } n line name) : SameButEnd path suite f g := by
  have hlength : (String.ofList name).length = name.length := String.length_ofList
  constructor
  case kind => exact hkind
  case name => rw [hname, hname']
  case parent => exact hparent
  case start =>
    rw [hold, hnew]
    rfl
  case stopLine =>
    rw [hold, hnew]
    rfl
  case header =>
    intro _
    rw [hold, hnew, hname, hname', hlength]
    exact ⟨rfl, rfl⟩
  case elsewhere => exact fun hnot => absurd hheader hnot

/-! ## Lines below markers -/

/-- What a line gives below a marker is related if what it declares is. -/
theorem belowMarker_rel {R : Finding → Finding → Prop} {declared declared' : Nat → List Char → Option Finding}
    (hdeclared : ∀ n line, Option.Rel R (declared n line) (declared' n line)) (lines : List (List Char)) (i : Nat) :
    Option.Rel R (belowMarker declared lines i) (belowMarker declared' lines i) := by
  cases i with
  | zero => exact .none
  | succ i =>
    rw [belowMarker_succ, belowMarker_succ]
    cases lines[i]?.filter Grammar.Marker.test.occursIn with
    | none => exact .none
    | some above =>
      cases lines[i + 1]? with
      | none => exact .none
      | some line => exact hdeclared (i + 1) line

theorem kind_of_methodOn {className : List Char} (h : methodOn className n line = some f) : f.kind = .method := by
  obtain ⟨header, -, rfl⟩ := Option.map_eq_some_iff.1 h
  rfl

theorem not_atHeader_of_method (h : f.kind = .method) : ¬ AtHeader path suite f := by
  simp [AtHeader, h]

/-! ## The three kinds of texts -/

/-- The class ends by the mode, and its methods do not. -/
theorem classFrom_sameButEnd (path : String) (lines : List (List Char)) :
    List.Forall₂ (SameButEnd path false) (classFrom { o with legacyRanges := true } 0 lines)
      (classFrom { o with legacyRanges := false } 0 lines) := by
  rcases exists_firstClass_or_noClass lines with ⟨h, line, name, hfirst⟩ | hnone
  · rw [classFrom_of_firstClass hfirst, classFrom_of_firstClass hfirst]
    refine .cons (.of_header rfl rfl rfl rfl (.inr (.inl ⟨rfl, rfl⟩)) rfl rfl) ?_
    rw [List.forall₂_same]
    intro f hf
    obtain ⟨i, -, hi⟩ := List.mem_filterMap.1 hf
    obtain ⟨-, line, -, hdeclared⟩ := belowMarker_eq_some hi
    exact .refl (not_atHeader_of_method (kind_of_methodOn hdeclared))
  · rw [classFrom_of_noClass hnone, classFrom_of_noClass hnone]
    exact .nil

/-- Each procedure ends by the mode. -/
theorem procedures_sameButEnd (path : String) (suite : Bool) (lines : List (List Char)) :
    List.Forall₂ (SameButEnd path suite) (procedures { o with legacyRanges := true } lines)
      (procedures { o with legacyRanges := false } lines) := by
  have hdeclared (n : Nat) (line : List Char) : Option.Rel (SameButEnd path suite)
      (procedureOn { o with legacyRanges := true } n line) (procedureOn { o with legacyRanges := false } n line) := by
    unfold procedureOn
    cases Grammar.procedureName? line with
    | none => exact .none
    | some name => exact .some (.of_header rfl rfl rfl rfl (.inl rfl) rfl rfl)
  rw [procedures_eq_filterMap, procedures_eq_filterMap]
  refine List.rel_filterMap (R := Eq) ?_ (List.forall₂_eq_eq_eq ▸ rfl)
  rintro i _ rfl
  exact belowMarker_rel hdeclared lines i

/-- The class of a suite ends by the mode, and its members do not. -/
theorem suiteBody_sameButEnd (path : String) (text : List Char) :
    List.Forall₂ (SameButEnd path true) (suiteBody { o with legacyRanges := true } text).findings
        (suiteBody { o with legacyRanges := false } text).findings ∧
      (suiteBody { o with legacyRanges := true } text).events path =
        (suiteBody { o with legacyRanges := false } text).events path := by
  rcases exists_firstHeader_or_noHeader (Text.lines text) with ⟨a, line, name, hfirst⟩ | hnone
  · rw [suiteBody_of_firstHeader hfirst, suiteBody_of_firstHeader hfirst]
    refine ⟨.cons (.of_header rfl rfl rfl rfl (.inr (.inr ⟨rfl, ?_⟩)) rfl rfl) ?_, rfl⟩
    · -- The header is not on the first line, where the suite for the file stands.
      intro hfile
      have hline : (a : Int) = 0 := congrArg (·.range.start.line) hfile
      have hbelow := hfirst.below
      omega
    · refine List.forall₂_same.2 fun f hf => .refl ?_
      obtain ⟨m, -, rfl⟩ := List.mem_map.1 hf
      simp [AtHeader, memberFinding, Finding.kind]
  · rw [suiteBody_of_noHeader hnone, suiteBody_of_noHeader hnone]
    exact ⟨.nil, rfl⟩

end Scan

/-! ## The scan of a text -/

/-- The mode of ranges leaves what is logged and what is found as it is, in the same order, up to the end columns of
headers: there a range ends at the length of the name in the mode of old, and that much after its start otherwise. -/
theorem scan_legacyRanges (o : Options) (path text : String) :
    (scan { o with legacyRanges := true } path text).events = (scan { o with legacyRanges := false } path text).events ∧
    List.Forall₂ (Scan.SameButEnd path (isSuite text)) (scan { o with legacyRanges := true } path text).findings
      (scan { o with legacyRanges := false } path text).findings := by
  have hkind : SourceKind.ofPath? { o with legacyRanges := false } path =
      SourceKind.ofPath? { o with legacyRanges := true } path := rfl
  have hbody := Scan.suiteBody_sameButEnd (o := o) path text.toList
  constructor
  · unfold scan
    rw [hkind]
    cases SourceKind.ofPath? { o with legacyRanges := true } path with
    | none => rfl
    | some kind =>
      cases kind with
      | classFile =>
        cases isSuite text with
        | true => exact hbody.2
        | false => rfl
      | programFile => cases isSuite text <;> rfl
  · apply Scan.forall₂_scan hkind rfl
    case hbody =>
      intro hsuite
      rw [hsuite]
      exact .cons (.refl (by simp [Scan.AtHeader, Scan.fileSuite, Finding.kind])) hbody.1
    case hclass =>
      intro hsuite
      rw [hsuite]
      unfold Scan.plainClass
      split
      · exact Scan.classFrom_sameButEnd path _
      · exact .nil
    case hprogram =>
      intro hsuite
      rw [hsuite, Scan.plainProgram_eq_procedures, Scan.plainProgram_eq_procedures]
      exact Scan.procedures_sameButEnd path false _

end TestDiscovery
