-- SUMMARY: A scan finds the same, up to letter case and columns, in two texts that differ in letter case only.
import TestDiscovery.Proofs.Grammar.LetterCase
import TestDiscovery.Proofs.Scan.Beside

/-!
# Letter case of texts

What is found in a text is found in the text with small letters, under the same names with small letters. The line and
the kind are the same, and so is the range of a method. Other findings start where their line first spells the name, and
this is the one thing that may change: a name may have been spelled before in other letters. Two texts with the same
letters have the same text with small letters, so their scans give the same up to this.
-/

namespace TestDiscovery

open Text

/-! ## Findings up to letter case -/

/-- A range without its columns. -/
def Range.onLines (r : Range) : Range := ⟨⟨r.start.line, 0⟩, ⟨r.stop.line, 0⟩⟩

/-- A text with small letters. -/
def smallText (s : String) : String := String.ofList (small s.toList)

theorem smallText_ofList (s : List Char) : smallText (String.ofList s) = String.ofList (small s) := by
  rw [smallText, String.toList_ofList]

theorem sameLetters_of_smallText {s t : String} (h : smallText s = smallText t) : SameLetters s.toList t.toList :=
  String.ofList_injective h

namespace Finding

/-- What letter case leaves of a finding: small letters, and the lines of the range; of a method, the whole range. -/
def caseless : Finding → Finding
  | suite r n => .suite r.onLines (smallText n)
  | testClass r n => .testClass r.onLines (smallText n)
  | program r n => .program r.onLines (smallText n)
  | method r owner n => .method r (smallText owner) (smallText n)
  | procedure r owner n => .procedure r.onLines (smallText owner) (smallText n)
  | assertion r owner => .assertion r.onLines (smallText owner)

/-- Two findings differ in letter case and in columns only, and methods not even in columns. -/
structure SameButCase (f g : Finding) : Prop where
  kind : f.kind = g.kind
  startLine : f.range.start.line = g.range.start.line
  stopLine : f.range.stop.line = g.range.stop.line
  name : SameLetters f.name.toList g.name.toList
  length : f.name.length = g.name.length
  parent : SameLetters f.parent.toList g.parent.toList
  method : f.kind = .method → f.range = g.range

variable {f g : Finding}

theorem kind_caseless (f : Finding) : f.caseless.kind = f.kind := by cases f <;> rfl

theorem range_onLines_caseless (f : Finding) : f.caseless.range.onLines = f.range.onLines := by cases f <;> rfl

theorem smallText_name (f : Finding) : smallText f.name = f.caseless.name := by cases f <;> rfl

theorem smallText_parent (f : Finding) : smallText f.parent = f.caseless.parent := by cases f <;> rfl

theorem range_caseless (h : f.kind = .method) : f.caseless.range = f.range := by
  cases f with
  | method r owner n => rfl
  | _ => cases h

theorem SameButCase.of_caseless_eq (h : f.caseless = g.caseless) : SameButCase f g := by
  have hkind : f.kind = g.kind := by rw [← kind_caseless, h, kind_caseless]
  have hlines : f.range.onLines = g.range.onLines := by rw [← range_onLines_caseless, h, range_onLines_caseless]
  have hname : SameLetters f.name.toList g.name.toList :=
    sameLetters_of_smallText (by rw [smallText_name, smallText_name, h])
  constructor
  case kind => exact hkind
  case startLine => exact congrArg (·.start.line) hlines
  case stopLine => exact congrArg (·.stop.line) hlines
  case name => exact hname
  case length => exact hname.length_eq
  case parent => exact sameLetters_of_smallText (by rw [smallText_parent, smallText_parent, h])
  case method =>
    intro hmethod
    rw [← range_caseless hmethod, h, range_caseless (hkind ▸ hmethod)]

/-- Findings are the same up to letter case if they are in pairs. -/
theorem map_caseless_eq_iff {fs gs : List Finding} :
    fs.map caseless = gs.map caseless ↔ List.Forall₂ (fun f g => f.caseless = g.caseless) fs gs := by
  rw [← List.forall₂_eq_eq_eq, List.forall₂_map_left_iff, List.forall₂_map_right_iff]

end Finding

namespace Scan

variable {o : Options} {n : Nat} {lines : List (List Char)}

/-! ## Single lines -/

theorem suiteHeader?_small (line : List Char) : suiteHeader? (small line) = (suiteHeader? line).map small := by
  unfold suiteHeader?
  rw [Grammar.isCommentLine_small, Grammar.Marker.occursIn_small, Grammar.className?_small]
  split <;> rfl

theorem methodOn_small (className : List Char) (n : Nat) (line : List Char) :
    (methodOn (small className) n (small line)).map Finding.caseless =
      (methodOn className n line).map Finding.caseless := by
  unfold methodOn
  rw [Grammar.method?_small]
  cases Grammar.method? line with
  | none => rfl
  | some header => simp [methodFinding, Grammar.MethodHeader.small, Finding.caseless, smallText_ofList, small_small]

theorem procedureOn_small (o : Options) (n : Nat) (line : List Char) :
    (procedureOn o n (small line)).map Finding.caseless = (procedureOn o n line).map Finding.caseless := by
  unfold procedureOn
  rw [Grammar.procedureName?_small]
  cases Grammar.procedureName? line with
  | none => rfl
  | some name =>
    simp [procedureFinding, headerRange, Range.onLine, Range.onLines, Finding.caseless, smallText_ofList, small_small]

/-- A member with small letters, on the line with small letters. -/
theorem caseless_member_small (n : Int) (line : List Char) (a : Grammar.Attribute) (name : List Char) :
    (memberFinding (a.small.member n (small line) (small name))).caseless =
      (memberFinding (a.member n line name)).caseless := by
  simp [memberFinding, Grammar.Attribute.member, Range.onLine, Range.onLines, Finding.caseless, smallText_ofList,
    small_small]

theorem suiteMembers_small (n : Int) (line : List Char) :
    (Grammar.suiteMembers anyCase n (small line)).map (Finding.caseless ∘ memberFinding) =
      (Grammar.suiteMembers anyCase n line).map (Finding.caseless ∘ memberFinding) := by
  unfold Grammar.suiteMembers
  rw [Grammar.parameters?_small]
  cases Grammar.parameters? anyCase line with
  | none => rfl
  | some inside =>
    have hmembers (a : Grammar.Attribute) : (a.small.members n (small line)).map (Finding.caseless ∘ memberFinding) =
        (a.members n line).map (Finding.caseless ∘ memberFinding) := by
      rw [Grammar.Attribute.members, Grammar.Attribute.members, Grammar.Attribute.small,
        splitOn_small (by decide), List.map_map, List.map_map, List.map_map]
      exact List.map_congr_left fun name _ => caseless_member_small n line a name
    have hattributes (found : Option Grammar.Attribute) :
        (found.map Grammar.Attribute.small).toList = found.toList.map Grammar.Attribute.small := by
      cases found <;> rfl
    simp only [Option.map_some]
    rw [Grammar.firstAttribute?_small, Grammar.furtherAttribute?_small, hattributes, hattributes, ← List.map_append,
      List.flatMap_map, List.map_flatMap, List.map_flatMap]
    simp only [hmembers]

theorem lineMembers_small (hreads : o.suiteCaseSensitive = false) (n : Nat) (line : List Char) :
    (lineMembers o n (small line)).map (Finding.caseless ∘ memberFinding) =
      (lineMembers o n line).map (Finding.caseless ∘ memberFinding) := by
  have hfits : annotationFits o = anyCase := by simp [annotationFits, hreads]
  unfold lineMembers
  rw [Grammar.Marker.occursIn_small, Grammar.isCommentLine_small, hfits]
  split
  · exact suiteMembers_small n line
  · rfl

/-! ## Runs of lines -/

theorem markedFrom_small {declared declared' : Nat → List Char → Option Finding}
    (hdeclared : ∀ n line, (declared' n (small line)).map Finding.caseless = (declared n line).map Finding.caseless)
    (above : List Char) :
    (markedFrom declared' n (small above) (lines.map small)).map Finding.caseless =
      (markedFrom declared n above lines).map Finding.caseless := by
  induction lines generalizing n above with
  | nil => rfl
  | cons line rest ih =>
    have hhere := hdeclared n line
    rw [List.map_cons, markedFrom, markedFrom, Grammar.Marker.occursIn_small, List.map_append, List.map_append, ih]
    congr 1
    cases Grammar.Marker.test.occursIn above with
    | false => rfl
    | true =>
      cases hdeclared' : declared' n (small line) <;> cases hdeclared : declared n line <;> simp_all

theorem classFrom_small : (classFrom o n (lines.map small)).map Finding.caseless =
    (classFrom o n lines).map Finding.caseless := by
  induction lines generalizing n with
  | nil => rfl
  | cons line rest ih =>
    rw [List.map_cons, classFrom, classFrom, Grammar.className?_small]
    cases Grammar.className? line with
    | none => exact ih
    | some name =>
      have hheader :
          (Finding.testClass (headerRange o n (small line) (small name)) (String.ofList (small name))).caseless =
            (Finding.testClass (headerRange o n line name) (String.ofList name)).caseless := by
        simp [headerRange, Range.onLine, Range.onLines, Finding.caseless, smallText_ofList, small_small]
      simp only [Option.map_some, List.map_cons, hheader, methodsFrom_eq_markedFrom]
      rw [markedFrom_small (methodOn_small name)]

theorem procedures_small : (procedures o (lines.map small)).map Finding.caseless =
    (procedures o lines).map Finding.caseless := by
  cases lines with
  | nil => rfl
  | cons first rest =>
    rw [List.map_cons, procedures, procedures, proceduresFrom_eq_markedFrom, proceduresFrom_eq_markedFrom,
      markedFrom_small (procedureOn_small o)]

/-! ## The three kinds of texts -/

variable {text : List Char}

theorem plainClass_small : (plainClass o (small text)).map Finding.caseless =
    (plainClass o text).map Finding.caseless := by
  unfold plainClass
  rw [Grammar.Marker.occursIn_small, lines_small]
  split
  · exact classFrom_small
  · rfl

theorem plainProgram_small : (plainProgram o (small text)).map Finding.caseless =
    (plainProgram o text).map Finding.caseless := by
  rw [plainProgram_eq_procedures, plainProgram_eq_procedures, lines_small, procedures_small]

/-! ## The parts of a suite -/

variable {numbered : List (List Char × Nat)}

/-- A numbered line with small letters. -/
def smallLine (numberedLine : List Char × Nat) : List Char × Nat := (small numberedLine.1, numberedLine.2)

theorem zipIdx_lines_small (text : List Char) : (Text.lines (small text)).zipIdx.tail =
    (Text.lines text).zipIdx.tail.map smallLine := by
  rw [lines_small, List.zipIdx_map, List.map_tail]
  rfl

theorem aboveHeader_small : aboveHeader (numbered.map smallLine) = (aboveHeader numbered).map smallLine := by
  have hheader (numberedLine : List Char × Nat) : (suiteHeader? (smallLine numberedLine).1).isNone =
      (suiteHeader? numberedLine.1).isNone := by
    rw [smallLine, suiteHeader?_small, Option.isNone_map]
  rw [aboveHeader, List.takeWhile_map, aboveHeader]
  congr 2
  exact funext hheader

theorem linesMembers_small (hreads : o.suiteCaseSensitive = false) :
    (linesMembers o (numbered.map smallLine)).map (Finding.caseless ∘ memberFinding) =
      (linesMembers o numbered).map (Finding.caseless ∘ memberFinding) := by
  rw [linesMembers, List.flatMap_map, List.map_flatMap, linesMembers, List.map_flatMap]
  exact List.flatMap_congr fun numberedLine _ => lineMembers_small hreads numberedLine.2 numberedLine.1

/-- The suite that a header declares, up to letter case. -/
def caselessAnchor (anchor : Range × String) : Finding := (Finding.suite anchor.1 anchor.2).caseless

theorem anchorOf?_small : (anchorOf? o (numbered.map smallLine)).map caselessAnchor =
    (anchorOf? o numbered).map caselessAnchor := by
  rw [anchorOf?, List.findSome?_map, List.map_findSome?, anchorOf?, List.map_findSome?]
  congr 1
  funext numberedLine
  rw [Function.comp_apply, Function.comp_apply, Function.comp_apply, smallLine, suiteHeader?_small]
  cases suiteHeader? numberedLine.1 with
  | none => rfl
  | some name =>
    simp [caselessAnchor, headerRange, Range.onLine, Range.onLines, Finding.caseless, smallText_ofList, small_small]

theorem suiteBody_small (hreads : o.suiteCaseSensitive = false) :
    (suiteBody o (small text)).findings.map Finding.caseless =
      (suiteBody o text).findings.map Finding.caseless := by
  have hmembers : (suiteBody o (small text)).members.map (Finding.caseless ∘ memberFinding) =
      (suiteBody o text).members.map (Finding.caseless ∘ memberFinding) := by
    rw [members_suiteBody, members_suiteBody, zipIdx_lines_small, aboveHeader_small, linesMembers_small hreads]
  have hanchor : (suiteBody o (small text)).anchor?.map caselessAnchor =
      (suiteBody o text).anchor?.map caselessAnchor := by
    rw [anchor?_suiteBody, anchor?_suiteBody, zipIdx_lines_small, anchorOf?_small]
  have hfindings (b : SuiteBody) : b.findings.map Finding.caseless =
      (b.anchor?.map caselessAnchor).toList.flatMap
        (· :: b.members.map (Finding.caseless ∘ memberFinding)) := by
    rw [SuiteBody.findings_eq]
    cases b.anchor? <;> simp [caselessAnchor]
  rw [hfindings, hfindings, hmembers, hanchor]

end Scan

/-! ## The scan of a text -/

theorem isSuite_small (text : String) : isSuite (smallText text) = isSuite text := by
  unfold isSuite smallText
  rw [String.toList_ofList, Grammar.Marker.occursIn_small]

/-- A text is scanned as its small letters are, up to letter case. -/
theorem scan_small {o : Options} {text : String} (path : String)
    (hreads : o.suiteCaseSensitive = false ∨ isSuite text = false) :
    (scan o path (smallText text)).findings.map Finding.caseless =
      (scan o path text).findings.map Finding.caseless := by
  have hsmall : (smallText text).toList = small text.toList := String.toList_ofList
  symm
  rw [Finding.map_caseless_eq_iff]
  apply Scan.forall₂_scan rfl (isSuite_small text)
  case hbody =>
    intro hsuite
    have hany : o.suiteCaseSensitive = false := hreads.resolve_right (by simp [hsuite])
    rw [hsmall]
    exact .cons rfl (Finding.map_caseless_eq_iff.1 (Scan.suiteBody_small hany).symm)
  case hclass =>
    intro _
    rw [hsmall]
    exact Finding.map_caseless_eq_iff.1 Scan.plainClass_small.symm
  case hprogram =>
    intro _
    rw [hsmall]
    exact Finding.map_caseless_eq_iff.1 Scan.plainProgram_small.symm

/-- Two texts that differ in letter case only are scanned to the same findings in the same order, up to letter case and
columns, if annotations are read in any letter case or there is no suite to read them in. -/
theorem scan_sameLetters {o : Options} {text text' : String} (path : String)
    (hsame : SameLetters text.toList text'.toList) (hreads : o.suiteCaseSensitive = false ∨ isSuite text = false) :
    List.Forall₂ Finding.SameButCase (scan o path text).findings (scan o path text').findings := by
  have htext : smallText text = smallText text' := congrArg String.ofList hsame
  have hreads' : o.suiteCaseSensitive = false ∨ isSuite text' = false := by
    rw [← isSuite_small text', ← htext, isSuite_small text]
    exact hreads
  have hcaseless : (scan o path text).findings.map Finding.caseless =
      (scan o path text').findings.map Finding.caseless := by
    rw [← scan_small path hreads, htext, scan_small path hreads']
  exact (Finding.map_caseless_eq_iff.1 hcaseless).imp fun _ _ => Finding.SameButCase.of_caseless_eq

theorem scan_sameLetters_capitals :
    List.Forall₂ Finding.SameButCase
        (scan { suiteCaseSensitive := false } "B.cls" "\n@TestSuite(Classes=\"A\")\nCLASS B:").findings
        (scan { suiteCaseSensitive := false } "B.cls" "\n@testsuite(classes=\"a\")\nclass b:").findings ∧
      (scan { suiteCaseSensitive := false } "B.cls" "\n@TestSuite(Classes=\"A\")\nCLASS B:").findings =
        [.suite (.onLine 0 0 0) "[suite] B.cls", .suite (.onLine 2 6 1) "B", .testClass (.onLine 1 20 21) "A"] ∧
      List.Forall₂ Finding.SameButCase (scan {} "A.cls" "class class:\n@Test.\n METHOD Void run()").findings
        (scan {} "A.cls" "class CLASS:\n@TEST.\n method void RUN()").findings ∧
      (scan {} "A.cls" "class class:\n@Test.\n METHOD Void run()").findings =
        [.testClass (.onLine 0 0 5) "class", .method (.onLine 2 0 16) "class" "run"] ∧
      (scan {} "A.cls" "class CLASS:\n@TEST.\n method void RUN()").findings =
        [.testClass (.onLine 0 6 5) "CLASS", .method (.onLine 2 0 16) "CLASS" "RUN"] :=
  ⟨scan_sameLetters "B.cls" (by decide) (.inl rfl), by decide, scan_sameLetters "A.cls" (by decide) (.inr (by decide)),
    by decide, by decide⟩

end TestDiscovery
