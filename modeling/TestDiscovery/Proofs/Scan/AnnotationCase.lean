-- SUMMARY: Reading annotations in any letter case adds members, except where an annotation comes before another.
import Mathlib.Data.List.Flatten
import TestDiscovery.Proofs.Grammar.AnyCaseAnnotation
import TestDiscovery.Proofs.Scan.Beside

/-!
# Annotations in any letter case, in a scan

The letter case of annotations has a say in the members of a suite and in nothing else: headers and the lines that are
read are the same. The members in both readings are compared line by line. One annotation is read on a line, so one in
another spelling may take the place of one in small letters; on all other lines no member is lost.
-/

namespace TestDiscovery

namespace Scan

variable {o : Options} {n : Nat} {line : List Char} {lines : List (List Char)} {m : SuiteMember}

/-! ## Members of single lines -/

/-- Whether the finding starts on a line where nothing stands in the way of the annotation in small letters. -/
def onOpenLine (lines : List (List Char)) (f : Finding) : Bool :=
  !lines[f.range.start.line.toNat]?.any Grammar.isShadowed

theorem lineMembers_sublist (hline : '\n' ∉ line) (hopen : Grammar.isShadowed line = false) (n : Nat) :
    List.Sublist (lineMembers { o with suiteCaseSensitive := true } n line)
      (lineMembers { o with suiteCaseSensitive := false } n line) := by
  unfold lineMembers
  split
  · exact Grammar.suiteMembers_sublist hline hopen n
  · exact .slnil

/-- A member stands on the line of its annotation. -/
theorem line_of_mem_lineMembers (h : m ∈ lineMembers o n line) : (memberFinding m).range.start.line = n := by
  unfold lineMembers at h
  split at h
  · obtain ⟨a, name, rfl, -⟩ := Grammar.mem_suiteMembers h
    rfl
  · cases h

/-! ## Members of numbered lines -/

/-- The members on lines where nothing stands in the way are read in any letter case as well. -/
theorem linesMembers_sublist {numbered : List (List Char × Nat)} (hlines : ∀ line ∈ lines, '\n' ∉ line)
    (hnumbered : ∀ numberedLine ∈ numbered, lines[numberedLine.2]? = some numberedLine.1) :
    List.Sublist
      ((linesMembers { o with suiteCaseSensitive := true } numbered).filter fun m => onOpenLine lines (memberFinding m))
      (linesMembers { o with suiteCaseSensitive := false } numbered) := by
  unfold linesMembers
  rw [List.filter_flatMap]
  refine List.Sublist.flatMap_right _ fun numberedLine hmem => ?_
  have hline := hnumbered numberedLine hmem
  cases hopen : Grammar.isShadowed numberedLine.1 with
  | false =>
    exact List.filter_sublist.trans (lineMembers_sublist (hlines _ (List.mem_of_getElem? hline)) hopen numberedLine.2)
  | true =>
    have hnone : (lineMembers { o with suiteCaseSensitive := true } numberedLine.2 numberedLine.1).filter
        (fun m => onOpenLine lines (memberFinding m)) = [] := by
      rw [List.filter_eq_nil_iff]
      intro m hm
      simp [onOpenLine, line_of_mem_lineMembers hm, hline, hopen]
    rw [hnone]
    exact List.nil_sublist _

/-! ## The suite of a text -/

theorem filter_suite_members (ms : List SuiteMember) : (ms.map memberFinding).filter (·.kind == .suite) = [] := by
  simp [List.filter_eq_nil_iff, memberFinding, Finding.kind]

theorem filter_testClass_members (ms : List SuiteMember) (p : Finding → Bool) :
    (ms.map memberFinding).filter (fun f => f.kind == .testClass && p f) =
      (ms.filter fun m => p (memberFinding m)).map memberFinding := by
  simp [List.filter_map, memberFinding, Finding.kind, Function.comp_def]

theorem suites_suiteBody (o : Options) (text : List Char) :
    (suiteBody { o with suiteCaseSensitive := true } text).findings.filter (·.kind == .suite) =
      (suiteBody { o with suiteCaseSensitive := false } text).findings.filter (·.kind == .suite) := by
  rcases exists_firstHeader_or_noHeader (Text.lines text) with ⟨a, line, name, hfirst⟩ | hnone
  · rw [suiteBody_of_firstHeader hfirst, suiteBody_of_firstHeader hfirst]
    simp only [SuiteBody.findings, List.filter_cons, filter_suite_members]
    rfl
  · rw [suiteBody_of_noHeader hnone, suiteBody_of_noHeader hnone]
    rfl

theorem testClasses_suiteBody (o : Options) (text : List Char) :
    List.Sublist
      ((suiteBody { o with suiteCaseSensitive := true } text).findings.filter fun f =>
        f.kind == .testClass && onOpenLine (Text.lines text) f)
      ((suiteBody { o with suiteCaseSensitive := false } text).findings.filter fun f => f.kind == .testClass) := by
  have hlines : ∀ line ∈ Text.lines text, '\n' ∉ line := fun line => Text.not_mem_of_mem_splitOn
  rcases exists_firstHeader_or_noHeader (Text.lines text) with ⟨a, line, name, hfirst⟩ | hnone
  · have hnumbered : ∀ numberedLine ∈ ((Text.lines text).zipIdx.take a).tail,
        (Text.lines text)[numberedLine.2]? = some numberedLine.1 := fun numberedLine hmem =>
      List.mem_zipIdx_iff_getElem?.1 (List.mem_of_mem_take (List.mem_of_mem_tail hmem))
    have hmembers := (linesMembers_sublist (o := o) hlines hnumbered).map memberFinding
    rw [suiteBody_of_firstHeader hfirst, suiteBody_of_firstHeader hfirst]
    have hall := filter_testClass_members
      (linesMembers { o with suiteCaseSensitive := false } ((Text.lines text).zipIdx.take a).tail) fun _ => true
    simp only [Bool.and_true, List.filter_true] at hall
    simp only [SuiteBody.findings, List.filter_cons, filter_testClass_members, hall]
    exact hmembers
  · rw [suiteBody_of_noHeader hnone, suiteBody_of_noHeader hnone]
    exact .slnil

/-! ## Texts without a suite -/

theorem plainClass_suiteCaseSensitive (o : Options) (text : List Char) :
    plainClass { o with suiteCaseSensitive := true } text = plainClass { o with suiteCaseSensitive := false } text := by
  unfold plainClass
  rcases exists_firstClass_or_noClass (Text.lines text) with ⟨h, line, name, hfirst⟩ | hnone
  · rw [classFrom_of_firstClass hfirst, classFrom_of_firstClass hfirst]
    rfl
  · rw [classFrom_of_noClass hnone, classFrom_of_noClass hnone]

theorem plainProgram_suiteCaseSensitive (o : Options) (text : List Char) :
    plainProgram { o with suiteCaseSensitive := true } text =
      plainProgram { o with suiteCaseSensitive := false } text := by
  rw [plainProgram_eq_procedures, plainProgram_eq_procedures, procedures_eq_filterMap, procedures_eq_filterMap]
  rfl

end Scan

/-! ## The scan of a text -/

/-- A text without a suite has nothing that the letter case of annotations has a say in. -/
theorem scan_eq_of_not_suite {o : Options} {path text : String} (h : isSuite text = false) :
    scan { o with suiteCaseSensitive := true } path text = scan { o with suiteCaseSensitive := false } path text := by
  unfold scan
  rw [h, show SourceKind.ofPath? { o with suiteCaseSensitive := true } path =
    SourceKind.ofPath? { o with suiteCaseSensitive := false } path from rfl]
  cases SourceKind.ofPath? { o with suiteCaseSensitive := false } path with
  | none => rfl
  | some kind =>
    cases kind with
    | classFile => exact congrArg (Scan.mk · []) (Scan.plainClass_suiteCaseSensitive o text.toList)
    | programFile => exact congrArg (Scan.mk · []) (Scan.plainProgram_suiteCaseSensitive o text.toList)

/-- A suite is read in the text of a class and nowhere else. -/
theorem findings_of_suite {o : Options} {path text : String} (h : isSuite text = true) :
    (scan o path text).findings =
      if SourceKind.ofPath? o path = some .classFile then
        Scan.fileSuite path :: (Scan.suiteBody o text.toList).findings
      else [] := by
  unfold scan
  rw [h]
  cases SourceKind.ofPath? o path with
  | none => rfl
  | some kind => cases kind <;> rfl

/-- Whether annotations are read in small letters or in any letter case, a scan finds the same suites, and in a text
without a suite annotation it finds and logs the same altogether. The members on all lines where no attribute stands in
the way of the annotation in small letters are among those in any letter case, in the same order. -/
theorem scan_suiteCaseSensitive (o : Options) (path text : String) :
    (scan { o with suiteCaseSensitive := true } path text).findings.filter (·.kind == .suite) =
      (scan { o with suiteCaseSensitive := false } path text).findings.filter (·.kind == .suite) ∧
    List.Sublist
      ((scan { o with suiteCaseSensitive := true } path text).findings.filter fun f =>
        f.kind == .testClass && Scan.onOpenLine (Text.lines text.toList) f)
      ((scan { o with suiteCaseSensitive := false } path text).findings.filter fun f => f.kind == .testClass) ∧
    (isSuite text = false →
      scan { o with suiteCaseSensitive := true } path text =
        scan { o with suiteCaseSensitive := false } path text) := by
  have hkind : SourceKind.ofPath? { o with suiteCaseSensitive := true } path =
      SourceKind.ofPath? { o with suiteCaseSensitive := false } path := rfl
  refine ⟨?_, ?_, scan_eq_of_not_suite⟩
  · cases hsuite : isSuite text with
    | false => rw [scan_eq_of_not_suite hsuite]
    | true =>
      rw [findings_of_suite hsuite, findings_of_suite hsuite, hkind]
      split
      · exact congrArg (Scan.fileSuite path :: ·) (Scan.suites_suiteBody o text.toList)
      · rfl
  · cases hsuite : isSuite text with
    | false =>
      rw [scan_eq_of_not_suite hsuite]
      exact List.monotone_filter_right _ fun f hf => (Bool.and_eq_true_iff.1 hf).1
    | true =>
      rw [findings_of_suite hsuite, findings_of_suite hsuite, hkind]
      split
      · exact Scan.testClasses_suiteBody o text.toList
      · exact .slnil

example :
    (scan { suiteCaseSensitive := true } "C.cls"
        "\n@testsuite(classes=\"A\")\n@TestSuite(classes=\"B\")\nclass C:").findings.map Finding.name =
        ["[suite] C.cls", "C", "A"] ∧
      (scan { suiteCaseSensitive := false } "C.cls"
        "\n@testsuite(classes=\"A\")\n@TestSuite(classes=\"B\")\nclass C:").findings.map Finding.name =
        ["[suite] C.cls", "C", "A", "B"] := by
  decide

theorem scan_suiteCaseSensitive_shadowed :
    ¬ List.Sublist
      ((scan { suiteCaseSensitive := true } "C.cls"
        "\n@TestSuite(classes=\"A\") @testsuite(classes=\"B\")\nclass C:").findings.filter (·.kind == .testClass))
      ((scan { suiteCaseSensitive := false } "C.cls"
        "\n@TestSuite(classes=\"A\") @testsuite(classes=\"B\")\nclass C:").findings.filter (·.kind == .testClass)) := by
  decide

end TestDiscovery
