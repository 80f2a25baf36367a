-- SUMMARY: The text of a suite as it may be written, and the scan that reads its members back.
import TestDiscovery.Proofs.Grammar.Annotation
import TestDiscovery.Proofs.Scan.SuiteClass

/-!
# Texts of suites

The text of a suite is an arbitrary first line, annotations, and the header of a class, with arbitrary lines below it.
The scan of such a text gives the file and the class as suites, and each name of each annotation as a test class.
-/

namespace TestDiscovery

namespace Scan

open Grammar

/-! ## Single lines -/

theorem suiteHeader?_annotation (a : SuiteAnnotation) : suiteHeader? a.text = none := by
  unfold suiteHeader?
  rw [a.suite_occursIn_text, Bool.or_true, if_pos rfl]

theorem suiteHeader?_header (h : ClassHeader) (hname : '@' ∉ h.name) : suiteHeader? h.text = some h.name := by
  have hat : '@' ∉ h.text := h.not_mem_text (.inl (by decide)) (by decide) (by decide) hname
  have hcomment : isCommentLine h.text = false := by
    refine isCommentLine_eq_false ?_
    rw [h.trimLeft_text]
    exact h.keyword.head?_text (by decide) (by decide) _
  unfold suiteHeader?
  rw [hcomment, Marker.occursIn_of_no_at hat]
  exact h.className?_text

/-- What is found of a name in an annotation on line `n`: a test class, at the first place where the line has the
name. -/
def nameFinding (n : Nat) (line name : List Char) : Finding :=
  .testClass (.onLine n (columnOf name line) (columnOf name line + name.length)) (String.ofList name)

theorem annotationFits_self (o : Options) (c : Char) : annotationFits o c c = true := by
  unfold annotationFits
  split
  · exact beq_self_eq_true c
  · simp [Text.anyCase]

theorem lineMembers_annotation (o : Options) (n : Nat) (a : SuiteAnnotation) :
    (lineMembers o n a.text).map memberFinding = a.names.map (nameFinding n a.text) := by
  have hlisting (l : Listing) : (l.names.map (l.toAttribute.member n a.text)).map memberFinding =
      l.names.map (nameFinding n a.text) := List.map_map
  unfold lineMembers SuiteAnnotation.names
  rw [a.suite_occursIn_text, a.isCommentLine_text, if_pos (by decide), a.suiteMembers_text (annotationFits_self o),
    List.map_flatMap, List.map_flatMap]
  simp only [hlisting]

/-! ## Written suites -/

/-- The text of a suite. -/
structure SuiteFile where
  first : List Char
  annotations : List SuiteAnnotation
  header : ClassHeader
  rest : List (List Char)
  first_inLine : '\n' ∉ first
  annotations_ne : annotations ≠ []
  name_noAt : '@' ∉ header.name
  rest_inLine : ∀ line ∈ rest, '\n' ∉ line

namespace SuiteFile

variable (f : SuiteFile)

def lines : List (List Char) := f.first :: (f.annotations.map SuiteAnnotation.text ++ f.header.text :: f.rest)

def text : String := String.ofList (Text.joinWith '\n' f.lines)

def classFinding (o : Options) : Finding :=
  .suite (headerRange o (1 + f.annotations.length) f.header.text f.header.name) (String.ofList f.header.name)

/-- What is found of the names, in the order in which they are written. The annotations stand on the lines from the
second one on. -/
def nameFindings : List Finding := (f.annotations.zipIdx 1).flatMap fun (a, n) => a.names.map (nameFinding n a.text)

theorem lines_text : Text.lines f.text.toList = f.lines := by
  unfold text
  rw [String.toList_ofList]
  refine Text.splitOn_joinWith (List.cons_ne_nil _ _) ?_
  intro line hline
  rcases List.mem_cons.1 hline with rfl | hline
  · exact f.first_inLine
  · rcases List.mem_append.1 hline with hline | hline
    · obtain ⟨a, -, rfl⟩ := List.mem_map.1 hline
      exact a.inLine
    · rcases List.mem_cons.1 hline with rfl | hline
      · exact f.header.inLine
      · exact f.rest_inLine line hline

theorem isSuite_text : isSuite f.text = true := by
  obtain ⟨a, annotations, hannotations⟩ := List.exists_cons_of_ne_nil f.annotations_ne
  unfold isSuite
  rw [Marker.occursIn_iff_exists_line, f.lines_text, lines, hannotations]
  exact ⟨a.text, by simp, a.suite_occursIn_text⟩

theorem linesMembers_annotations (o : Options) (annotations : List SuiteAnnotation) (n : Nat) :
    (linesMembers o ((annotations.map SuiteAnnotation.text).zipIdx n)).map memberFinding =
      (annotations.zipIdx n).flatMap fun (a, n) => a.names.map (nameFinding n a.text) := by
  induction annotations generalizing n with
  | nil => rfl
  | cons a annotations ih =>
    have hrest := ih (n + 1)
    unfold linesMembers at hrest ⊢
    rw [List.map_cons, List.zipIdx_cons, List.flatMap_cons, List.map_append, lineMembers_annotation, hrest,
      List.zipIdx_cons, List.flatMap_cons]

/-- The annotations are read down to the header, and what stands below it is not. -/
theorem suiteBody_text (o : Options) :
    (suiteBody o f.text.toList).findings = f.classFinding o :: f.nameFindings ∧
      ∀ path, (suiteBody o f.text.toList).events path = [] := by
  have hbefore : ∀ line ∈ f.annotations.map SuiteAnnotation.text, suiteHeader? line = none := by
    intro line hline
    obtain ⟨a, -, rfl⟩ := List.mem_map.1 hline
    exact suiteHeader?_annotation a
  have hheader := suiteHeader?_header f.header f.name_noAt
  unfold suiteBody
  rw [f.lines_text, lines, List.tail_cons, suiteFrom_append hbefore, suiteFrom_cons_of_header hheader, List.length_map,
    List.nil_append]
  exact ⟨congrArg (f.classFinding o :: ·) (linesMembers_annotations o f.annotations 1), fun _ => rfl⟩

/-- The names that are found are those that are written, all of them and in this order. -/
theorem names_nameFindings (path : String) :
    f.nameFindings.map (fun finding => (finding.kind, (finding.toEntity path).name)) =
      (f.annotations.flatMap SuiteAnnotation.names).map fun name => (.testClass, String.ofList name) := by
  have hnames (a : SuiteAnnotation) (n : Nat) :
      (a.names.map (nameFinding n a.text)).map (fun finding => (finding.kind, (finding.toEntity path).name)) =
        a.names.map fun name => (.testClass, String.ofList name) := List.map_map
  simp only [nameFindings, List.map_flatMap, hnames]
  rw [← List.flatMap_map Prod.fst fun a : SuiteAnnotation => a.names.map fun name => (Kind.testClass, String.ofList name),
    List.zipIdx_map_fst]

end SuiteFile

end Scan

/-! ## The scan of a written suite -/

/-- The scan of a written suite gives the file, the class, and one test class for each name of each annotation, in the
order in which they are written, each on its own line. -/
theorem scan_suiteFile {o : Options} {path : String} (hpath : o.classExtension.toList <:+ path.toList)
    (f : Scan.SuiteFile) :
    scan o path f.text = { findings := Scan.fileSuite path :: f.classFinding o :: f.nameFindings, events := [] } ∧
    (scan o path f.text).findings.map (fun finding => (finding.kind, (finding.toEntity path).name)) =
      (.suite, "[suite] " ++ path) :: (.suite, String.ofList f.header.name) ::
        (f.annotations.flatMap Grammar.SuiteAnnotation.names).map fun name => (.testClass, String.ofList name) := by
  have hscan : scan o path f.text =
      { findings := Scan.fileSuite path :: f.classFinding o :: f.nameFindings, events := [] } := by
    obtain ⟨hfindings, hevents⟩ := f.suiteBody_text o
    rw [scan_of_suiteClass hpath f.isSuite_text, hfindings, hevents]
  refine ⟨hscan, ?_⟩
  rw [hscan, List.map_cons, List.map_cons, f.names_nameFindings path]
  rfl

/-- Attributes with names that hold a parenthesis, a keyword, and a name of the other attribute. -/
def Scan.classesListing : Grammar.Listing where
  kind := .classes
  names := ["A".toList, "classes)".toList]
  names_ne := by decide
  names_inLine := by decide
  names_noComma := by decide
  names_noQuote := by decide
  names_noEquals := by decide

def Scan.proceduresListing : Grammar.Listing where
  kind := .procedures
  names := ["A".toList]
  names_ne := by decide
  names_inLine := by decide
  names_noComma := by decide
  names_noQuote := by decide
  names_noEquals := by decide

/-- A suite with two annotations and a text below its header. -/
def Scan.twoAnnotations : Scan.SuiteFile where
  first := "// suite".toList
  annotations := [⟨classesListing, some proceduresListing, true⟩, ⟨proceduresListing, none, false⟩]
  header := .ofName ['S'] (by decide) (by decide)
  rest := ["end class.".toList]
  first_inLine := by decide
  annotations_ne := List.cons_ne_nil _ _
  name_noAt := by decide
  rest_inLine := by decide

theorem scan_suiteFile_twoAnnotations :
    (scan {} "S.cls"
        ("// suite\n@testsuite(classes=\"A,classes)\",procedures=\"A\").\n@testsuite(procedures=\"A\")\n" ++
          "class S:\nend class.")).findings =
      [.suite (.onLine 0 0 0) "[suite] S.cls", .suite (.onLine 3 6 1) "S", .testClass (.onLine 1 20 21) "A",
        .testClass (.onLine 1 22 30) "classes)", .testClass (.onLine 1 20 21) "A", .testClass (.onLine 2 23 24) "A"] := by
  have hpath : ({} : Options).classExtension.toList <:+ "S.cls".toList := by decide
  exact congrArg Scan.findings (scan_suiteFile hpath Scan.twoAnnotations).1

end TestDiscovery
