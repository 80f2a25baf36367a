-- SUMMARY: Ranges of headers start at the name in the header, or earlier where the line spells the name in front of it.
import TestDiscovery.Proofs.Grammar.HeaderPlaces
import TestDiscovery.Proofs.Scan.EndColumns
import TestDiscovery.Proofs.Scan.Origin

/-!
# Columns of headers

A class, the class of a suite and a procedure are found in a header, and their range is that of the first place where
the line of the header spells the name. In most lines this is the name in the header. The exceptions are the lines
that spell it ahead: then the name is in the text in front of the header, which is blank for classes, or in the keyword.
-/

namespace TestDiscovery

namespace Scan

open Grammar (HeaderParts ClassHeaderAt ProcedureHeaderAt)

/-- The finding stands for the name in the header behind `before` on its line, as its kind asks for: a procedure in the
first one on the line, and a class or a suite in the one that the line starts with. -/
structure OfHeader (f : Finding) (line before : List Char) (h : HeaderParts) : Prop where
  procedure : f.kind = .procedure → ProcedureHeaderAt line before h
  ofClass : f.kind ≠ .procedure → ClassHeaderAt line before h
  name : f.name = String.ofList h.name

/-- The range starts at the name in the header, unless the name is spelled ahead: then it starts there. It ends where
the name does if the options do not ask for the end column of old. -/
structure StartsByHeader (o : Options) (r : Range) (before : List Char) (h : HeaderParts) : Prop where
  atName : ¬ h.SpelledAhead before → r.start.column = h.column before
  ahead : h.SpelledAhead before →
    r.start.column = Grammar.columnOf h.name (before ++ h.lead) ∧ r.start.column < h.column before
  stop : o.legacyRanges = false → r.stop.column = r.start.column + h.name.length

/-- A finding stands by a header on a line of a text. -/
def Headed (o : Options) (lines : List (List Char)) (f : Finding) : Prop :=
  ∃ (i : Nat) (line before : List Char) (h : HeaderParts), lines[i]? = some line ∧ f.range.start.line = i ∧
    f.range.stop.line = i ∧ OfHeader f line before h ∧ StartsByHeader o f.range before h

variable {o : Options} {n : Nat} {line before name : List Char} {h : HeaderParts} {f : Finding}
  {lines : List (List Char)} {path : String}

theorem startsByHeader_headerRange {word : List Char} (hat : Grammar.HeaderAt word line before h) :
    StartsByHeader o (headerRange o n line h.name) before h := by
  constructor
  case atName => exact hat.columnOf_name
  case ahead => exact hat.columnOf_name_ahead
  case stop =>
    intro hlegacy
    simp [headerRange, Range.onLine, hlegacy]

/-- What has the name and the range of a class header stands by it. -/
theorem headed_of_class (hline : lines[n]? = some line) (hheader : Grammar.className? line = some name)
    (hkind : f.kind ≠ .procedure) (hname : f.name = String.ofList name) (hrange : f.range = headerRange o n line name) :
    Headed o lines f := by
  obtain ⟨before, h, hat, rfl⟩ := Grammar.className?_eq_some_iff.1 hheader
  refine ⟨n, line, before, h, hline, ?_, ?_, ⟨fun hprocedure => absurd hprocedure hkind, fun _ => hat, hname⟩, ?_⟩
  · rw [hrange]
    rfl
  · rw [hrange]
    rfl
  · rw [hrange]
    exact startsByHeader_headerRange hat.toHeaderAt

/-- A procedure stands by its header. -/
theorem headed_of_procedure (hline : lines[n]? = some line) (hheader : Grammar.procedureName? line = some name) :
    Headed o lines (procedureFinding o n line name) := by
  obtain ⟨before, h, hat, rfl⟩ := Grammar.procedureName?_eq_some_iff.1 hheader
  exact ⟨n, line, before, h, hline, rfl, rfl, ⟨fun _ => hat, fun hkind => absurd rfl hkind, rfl⟩,
    startsByHeader_headerRange hat.toHeaderAt⟩

/-- A finding stands for one header of its line. -/
theorem OfHeader.unique {before' : List Char} {h' : HeaderParts} (hof : OfHeader f line before h)
    (hof' : OfHeader f line before' h') : before = before' ∧ h = h' := by
  by_cases hkind : f.kind = .procedure
  · exact (hof.procedure hkind).unique (hof'.procedure hkind)
  · exact (hof.ofClass hkind).unique (hof'.ofClass hkind)

/-! ## Findings by their origins -/

/-- What is found at a header stands by it. -/
theorem Origin.headed {suite : Bool} (horigin : Origin o path suite lines f) (hat : AtHeader path suite f) :
    Headed o lines f := by
  cases horigin with
  | file => simp [AtHeader, fileSuite, Finding.kind] at hat
  | anchor hsuite hbelow hline hheader =>
    exact headed_of_class hline (className?_of_suiteHeader? hheader) (by simp [Finding.kind]) rfl rfl
  | member hsuite =>
    -- A member is found as a class, but in its annotation.
    simp [AtHeader, memberFinding, Finding.kind, hsuite] at hat
  | ofClass hsuite hline hheader => exact headed_of_class hline hheader (by simp [Finding.kind]) rfl rfl
  | method hsuite hline hdeclared => exact absurd hat (not_atHeader_of_method (kind_of_methodOn hdeclared))
  | procedure hsuite hline hdeclared =>
    obtain ⟨name, hname, rfl⟩ := Option.map_eq_some_iff.1 hdeclared
    exact headed_of_procedure hline hname

end Scan

/-! ## The scan of a text -/

/-- A finding at a header stands for one header of its line. Its range starts in the column where the name stands in the
header, unless the line spells the name ahead of it: there the range starts. With the plain end columns it ends as much
later as the name is long. The name of a class is spelled ahead only by the keyword; that of a procedure may also be by
the text in front of its header. -/
theorem scan_headers_start (o : Options) (path text : String) :
    ∀ f ∈ (scan o path text).findings, Scan.AtHeader path (isSuite text) f →
      ∃ (i : Nat) (line before : List Char) (h : Grammar.HeaderParts),
        (Text.lines text.toList)[i]? = some line ∧ f.range.start.line = i ∧ f.range.stop.line = i ∧
        Scan.OfHeader f line before h ∧ (∀ before' h', Scan.OfHeader f line before' h' → before = before' ∧ h = h') ∧
        Scan.StartsByHeader o f.range before h ∧
        (f.kind ≠ .procedure → (h.SpelledAhead before ↔ h.name <:+: h.keyword)) := by
  intro f hf hat
  obtain ⟨i, line, before, h, hline, hstart, hstop, hheader, hrange⟩ := (Scan.origin_of_mem_scan hf).headed hat
  exact ⟨i, line, before, h, hline, hstart, hstop, hheader, fun _ _ hother => hheader.unique hother, hrange,
    fun hkind => (hheader.ofClass hkind).spelledAhead_iff⟩

theorem scan_headers_start_indented :
    Finding.procedure (.onLine 1 11 14) "" "run" ∈
        (scan { legacyRanges := false } "a.p" "@Test.\n procedure run:").findings ∧
      ∃ (i : Nat) (line before : List Char) (h : Grammar.HeaderParts),
        (Text.lines "@Test.\n procedure run:".toList)[i]? = some line ∧ 1 = i ∧
        Scan.OfHeader (.procedure (.onLine 1 11 14) "" "run") line before h ∧
        Scan.StartsByHeader { legacyRanges := false } (.onLine 1 11 14) before h := by
  have hmem : Finding.procedure (.onLine 1 11 14) "" "run" ∈
      (scan { legacyRanges := false } "a.p" "@Test.\n procedure run:").findings := by
    decide
  obtain ⟨i, line, before, h, hline, hstart, -, hheader, -, hrange, -⟩ :=
    scan_headers_start { legacyRanges := false } "a.p" "@Test.\n procedure run:" _ hmem (.inl rfl)
  exact ⟨hmem, i, line, before, h, hline, Int.ofNat.inj hstart, hheader, hrange⟩

/-- The letter `s` is spelled by the keyword of its header, so the class of this name starts there and not at its name. -/
theorem scan_header_spelledByKeyword :
    (scan {} "A.cls" "class s:\n@Test.\n").findings = [.testClass (.onLine 0 3 1) "s"] ∧
      ∃ before h, Grammar.ClassHeaderAt "class s:".toList before h ∧ h.name = ['s'] ∧ h.column before = 6 ∧
        ∀ before' h', Grammar.ClassHeaderAt "class s:".toList before' h' → before = before' ∧ h = h' := by
  have hheader : Grammar.ClassHeaderAt "class s:".toList []
      ⟨Grammar.classWord, [' '], ['s'], [':'], by decide, by decide, by decide⟩ :=
    ⟨⟨by decide, Text.InAnyCase.spells (by decide), by simp [Text.AtWordStart]⟩, by decide⟩
  exact ⟨by decide, [], _, hheader, rfl, rfl, fun _ _ hother => hheader.unique hother⟩

end TestDiscovery
