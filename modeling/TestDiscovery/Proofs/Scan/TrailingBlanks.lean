-- SUMMARY: Blanks at the ends of lines change no finding and no assertion; carriage returns before line breaks are such.
import TestDiscovery.Discovery.Access
import TestDiscovery.Proofs.Files.Following
import TestDiscovery.Proofs.Grammar.TrailingBlanks
import TestDiscovery.Proofs.Scan.MarkedLines
import TestDiscovery.Proofs.Scan.SuiteClass
import TestDiscovery.Proofs.Text.LineEnd
import TestDiscovery.Proofs.Text.Utf8

/-!
# Blanks at the ends of lines

What a line declares is the same with blanks after it, and so are the markers and the columns on it. The scans go from
line to line and carry along what they have read, so they stay side by side on two texts that differ in such blanks
only. A source read from a file differs from its bytes in this way if its lines end with a carriage return and a line
feed.
-/

namespace TestDiscovery

namespace Scan

open Text

variable {o : Options} {n : Nat} {line name ws : List Char} {lines lines' : List (List Char)} {text text' : List Char}

/-! ## Single lines -/

theorem headerRange_append (h : name <:+: line) : headerRange o n (line ++ ws) name = headerRange o n line name := by
  unfold headerRange
  rw [Grammar.columnOf_append h]

theorem keepsBlanks_annotationFits : KeepsBlanks (annotationFits o) := by
  unfold annotationFits
  split
  · exact keepsBlanks_exactly
  · exact keepsBlanks_anyCase

theorem suiteHeader?_append (h : AllBlank ws) : suiteHeader? (line ++ ws) = suiteHeader? line := by
  unfold suiteHeader?
  rw [Grammar.isCommentLine_append h, Grammar.Marker.occursIn_append h, Grammar.className?_append h]

theorem lineMembers_append (h : AllBlank ws) : lineMembers o n (line ++ ws) = lineMembers o n line := by
  unfold lineMembers
  rw [Grammar.isCommentLine_append h, Grammar.Marker.occursIn_append h,
    Grammar.suiteMembers_append keepsBlanks_annotationFits n h]

theorem methodOn_append {className : List Char} (h : AllBlank ws) :
    methodOn className n (line ++ ws) = methodOn className n line := by
  unfold methodOn
  rw [Grammar.method?_append h]

theorem procedureOn_append (h : AllBlank ws) : procedureOn o n (line ++ ws) = procedureOn o n line := by
  unfold procedureOn
  rw [Grammar.procedureName?_append h]
  cases hname : Grammar.procedureName? line with
  | none => rfl
  | some name =>
    simp only [Option.map_some, procedureFinding]
    rw [headerRange_append (Grammar.infix_of_procedureName? hname)]

/-! ## Runs of lines -/

theorem exists_marked_iff_of_blanksAfter {m : Grammar.Marker} (h : List.Forall₂ BlanksAfter lines lines') :
    (∃ line ∈ lines', m.occursIn line = true) ↔ ∃ line ∈ lines, m.occursIn line = true := by
  induction h with
  | nil => exact Iff.rfl
  | cons hline _ ih =>
    obtain ⟨ws, hws, rfl⟩ := hline
    rw [List.exists_mem_cons_iff, List.exists_mem_cons_iff, ih, Grammar.Marker.occursIn_append hws]

theorem suiteFrom_of_blanksAfter {members : List SuiteMember} (h : List.Forall₂ BlanksAfter lines lines') :
    suiteFrom o n members lines' = suiteFrom o n members lines := by
  induction h generalizing n members with
  | nil => rfl
  | @cons line _ rest rest' hline _ ih =>
    obtain ⟨ws, hws, rfl⟩ := hline
    cases hheader : suiteHeader? line with
    | some name =>
      have hname : name <:+: line := Grammar.infix_of_className? (className?_of_suiteHeader? hheader)
      rw [suiteFrom_cons_of_header hheader, suiteFrom_cons_of_header ((suiteHeader?_append hws).trans hheader),
        headerRange_append hname]
    | none =>
      rw [suiteFrom_cons_of_no_header hheader, suiteFrom_cons_of_no_header ((suiteHeader?_append hws).trans hheader),
        lineMembers_append hws, ih]

/-- The line above each line may have blanks after it as well. -/
theorem markedFrom_of_blanksAfter {declared : Nat → List Char → Option Finding} {above : List Char}
    (hdeclared : ∀ n line ws, AllBlank ws → declared n (line ++ ws) = declared n line)
    (hws : AllBlank ws) (h : List.Forall₂ BlanksAfter lines lines') :
    markedFrom declared n (above ++ ws) lines' = markedFrom declared n above lines := by
  induction h generalizing n above ws with
  | nil => rfl
  | cons hline _ ih =>
    obtain ⟨blanks, hblanks, rfl⟩ := hline
    rw [markedFrom, markedFrom, ih hblanks, hdeclared _ _ _ hblanks, Grammar.Marker.occursIn_append hws]

theorem classFrom_of_blanksAfter (h : List.Forall₂ BlanksAfter lines lines') :
    classFrom o n lines' = classFrom o n lines := by
  induction h generalizing n with
  | nil => rfl
  | @cons line _ rest rest' hline hrest ih =>
    obtain ⟨ws, hws, rfl⟩ := hline
    rw [classFrom, classFrom, Grammar.className?_append hws]
    cases hheader : Grammar.className? line with
    | none => exact ih
    | some name =>
      simp only [methodsFrom_eq_markedFrom, headerRange_append (Grammar.infix_of_className? hheader)]
      rw [markedFrom_of_blanksAfter (fun _ _ _ => methodOn_append) hws hrest]

theorem procedures_of_blanksAfter (h : List.Forall₂ BlanksAfter lines lines') :
    procedures o lines' = procedures o lines := by
  cases h with
  | nil => rfl
  | cons hfirst hrest =>
    obtain ⟨ws, hws, rfl⟩ := hfirst
    rw [procedures, procedures, proceduresFrom_eq_markedFrom, proceduresFrom_eq_markedFrom,
      markedFrom_of_blanksAfter (fun _ _ _ => procedureOn_append) hws hrest]

/-! ## The three kinds of texts -/

/-- A text carries a marker with blanks at the ends of its lines if it does without them. -/
theorem occursIn_of_blanksAtLineEnds {m : Grammar.Marker} (h : BlanksAtLineEnds text text') :
    m.occursIn text' = m.occursIn text := by
  rw [Bool.eq_iff_iff, Grammar.Marker.occursIn_iff_exists_line, Grammar.Marker.occursIn_iff_exists_line,
    exists_marked_iff_of_blanksAfter h]

theorem suiteBody_of_blanksAtLineEnds (h : BlanksAtLineEnds text text') : suiteBody o text' = suiteBody o text := by
  have htail : List.Forall₂ BlanksAfter (Text.lines text).tail (Text.lines text').tail := by
    rw [← List.drop_one, ← List.drop_one]
    exact List.forall₂_drop 1 h
  exact suiteFrom_of_blanksAfter htail

theorem plainClass_of_blanksAtLineEnds (h : BlanksAtLineEnds text text') : plainClass o text' = plainClass o text := by
  unfold plainClass
  rw [occursIn_of_blanksAtLineEnds h, classFrom_of_blanksAfter h]

theorem plainProgram_of_blanksAtLineEnds (h : BlanksAtLineEnds text text') :
    plainProgram o text' = plainProgram o text := by
  unfold plainProgram
  rw [occursIn_of_blanksAtLineEnds h, procedures_of_blanksAfter h]

end Scan

theorem scan_of_blanksAtLineEnds {o : Options} {path text text' : String}
    (h : Text.BlanksAtLineEnds text.toList text'.toList) : scan o path text' = scan o path text := by
  unfold scan isSuite
  rw [Scan.occursIn_of_blanksAtLineEnds h, Scan.suiteBody_of_blanksAtLineEnds h, Scan.plainClass_of_blanksAtLineEnds h,
    Scan.plainProgram_of_blanksAtLineEnds h]

namespace Grammar

theorem assertCallsFrom_of_blanksAfter {n : Nat} {lines lines' : List (List Char)}
    (h : List.Forall₂ Text.BlanksAfter lines lines') : assertCallsFrom n lines' = assertCallsFrom n lines := by
  induction h generalizing n with
  | nil => rfl
  | cons hline _ ih =>
    obtain ⟨ws, hws, rfl⟩ := hline
    rw [assertCallsFrom, assertCallsFrom, assertion?_append hws, ih]

theorem assertCalls_of_blanksAtLineEnds {text text' : String}
    (h : Text.BlanksAtLineEnds text.toList text'.toList) : assertCalls text' = assertCalls text :=
  assertCallsFrom_of_blanksAfter h

end Grammar

/-! ## Sources -/

/-- The source in a file that holds a text in UTF-8. -/
theorem FileSystem.readSource_of_encode {fs : FileSystem} {file : Path} {text : List Char}
    (hclean : file.hasNul = false) (hread : fs.read file = .ok (Text.Utf8.encode text)) :
    fs.readSource file = .ok (String.ofList (Text.unifyNewlines text)) := by
  unfold FileSystem.readSource
  simp only [hclean, hread, Text.Utf8.decode_encode]
  rfl

/-- Blanks added to the ends of lines change neither the scan of a text nor its assertions. So a text with carriage
returns right before line breaks only comes to the same as the source that is read from a file with this text, which has
no carriage returns. -/
theorem scan_eq_of_blanksAtLineEnds (o : Options) (path : String) :
    (∀ text text' : String, Text.BlanksAtLineEnds text.toList text'.toList →
      scan o path text' = scan o path text ∧ Grammar.assertCalls text' = Grammar.assertCalls text) ∧
    ∀ (text : String) (fs : FileSystem) (file : Path), Text.ReturnsBeforeBreaks text.toList → file.hasNul = false →
      fs.read file = .ok (Text.Utf8.encode text.toList) →
      ∃ source, fs.readSource file = .ok source ∧ source.toList = text.toList.filter (· != '\r') ∧
        scan o path text = scan o path source ∧ Grammar.assertCalls text = Grammar.assertCalls source := by
  refine ⟨fun text text' h => ⟨scan_of_blanksAtLineEnds h, Grammar.assertCalls_of_blanksAtLineEnds h⟩, ?_⟩
  intro text fs file hreturns hclean hread
  have hsource : Text.BlanksAtLineEnds (String.ofList (Text.unifyNewlines text.toList)).toList text.toList := by
    rw [String.toList_ofList]
    exact Text.blanksAtLineEnds_unifyNewlines hreturns
  refine ⟨_, FileSystem.readSource_of_encode hclean hread, ?_, scan_of_blanksAtLineEnds hsource,
    Grammar.assertCalls_of_blanksAtLineEnds hsource⟩
  rw [String.toList_ofList, Text.unifyNewlines_eq_filter hreturns]

/-- A root with one source, whose lines end with a carriage return and a line feed. -/
def FileSystem.crlfEnded : FileSystem where
  tree := .shallow [("a.p", .file (Text.Utf8.encode "@Test.\r\nprocedure a:\r\n".toList))] (by decide) (by decide)

theorem scan_eq_of_blanksAtLineEnds_crlfEnded :
    (Text.BlanksAtLineEnds "@Test.\nprocedure a:".toList "@Test. \nprocedure a:\t".toList ∧
      scan {} "a.p" "@Test. \nprocedure a:\t" = { findings := [.procedure (.onLine 1 10 1) "" "a"] }) ∧
    ∃ source, FileSystem.crlfEnded.readSource ⟨.root, ["a.p"]⟩ = .ok source ∧
      source.toList = "@Test.\nprocedure a:\n".toList ∧
      scan {} "a.p" "@Test.\r\nprocedure a:\r\n" = scan {} "a.p" source := by
  have hblanks : Text.BlanksAtLineEnds "@Test.\nprocedure a:".toList "@Test. \nprocedure a:\t".toList := by decide
  have hreturns : Text.ReturnsBeforeBreaks "@Test.\r\nprocedure a:\r\n".toList := by decide
  have hread : FileSystem.crlfEnded.read ⟨.root, ["a.p"]⟩ =
      .ok (Text.Utf8.encode "@Test.\r\nprocedure a:\r\n".toList) := rfl
  obtain ⟨hadded, hreturned⟩ := scan_eq_of_blanksAtLineEnds {} "a.p"
  obtain ⟨source, hsource, htext, hscan, -⟩ := hreturned _ _ _ hreturns rfl hread
  exact ⟨⟨hblanks, (hadded _ _ hblanks).1.trans (by rfl)⟩, source, hsource, htext, hscan⟩

end TestDiscovery
