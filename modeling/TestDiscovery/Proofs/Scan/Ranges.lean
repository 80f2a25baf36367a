-- SUMMARY: Where findings stand: on a line of the text, at the name that they report.
import TestDiscovery.Proofs.Grammar.Method
import TestDiscovery.Proofs.Scan.Origin

/-!
# Ranges

Every finding but the one for a suite as a whole stands on a line of the text. A class, a suite, a procedure and a
member of a suite start where their line first spells their name; a method starts with its line. Names are stretches of
their lines, so there always is such a column.
-/

namespace TestDiscovery

namespace Scan

variable {o : Options} {line name : List Char} {n : Nat} {r : Range} {f : Finding}

/-! ## Ranges of names -/

/-- The range starts where the line spells the name. -/
def StartsAtName (line : List Char) (r : Range) (name : String) : Prop :=
  ∃ column : Nat, r.start.column = column ∧ column + name.length ≤ line.length ∧
    (line.drop column).take name.length = name.toList

/-- The range ends where the name that it starts with does. -/
def EndsAfterName (r : Range) (name : String) : Prop := r.stop.column = r.start.column + name.length

/-- The range is that of the first declaration of a method on the line: from the first column, and as long as the
declaration from its blanks to the end of its name. If its keyword has nothing but blanks before it, the range ends
with the name. -/
def CoversMethod (line : List Char) (r : Range) (name : String) : Prop :=
  ∃ before rest header, Grammar.FirstMethod false line before rest header ∧
    (∃ after, Text.afterKeyword? Text.anyCase Grammar.methodWord (Text.trimLeft rest) = some after) ∧
    name = String.ofList header.name ∧ r.start.column = 0 ∧ r.stop.column = header.length ∧
    header.length ≤ line.length ∧
    (Text.AllBlank (before ++ rest.takeWhile Text.isBlank) → name.toList <:+ line.take header.length)

theorem startsAtName_of_infix (hname : name <:+: line) (hstart : r.start.column = Grammar.columnOf name line) :
    StartsAtName line r (String.ofList name) := by
  obtain ⟨column, hcolumn, hbound, hspelled, -⟩ := Grammar.columnOf_of_infix hname
  refine ⟨column, hstart.trans hcolumn, ?_, ?_⟩
  · rwa [String.length_ofList]
  · rw [String.length_ofList, String.toList_ofList]
    exact (List.prefix_iff_eq_take.1 hspelled).symm

/-! ## Findings -/

/-- A finding stands on its line as its kind asks for. A class is a member in the text of a suite, and has its own
header elsewhere. -/
def Placed (o : Options) (suite : Bool) (line : List Char) : Finding → Prop
  | .suite r name => StartsAtName line r name ∧ (o.legacyRanges = false → EndsAfterName r name)
  | .testClass r name =>
    StartsAtName line r name ∧ (suite = true ∨ o.legacyRanges = false → EndsAfterName r name)
  | .procedure r _ name => StartsAtName line r name ∧ (o.legacyRanges = false → EndsAfterName r name)
  | .method r _ name => CoversMethod line r name
  | .program .. | .assertion .. => False

/-- A finding stands on a line of a text. -/
def PlacedIn (o : Options) (suite : Bool) (lines : List (List Char)) (f : Finding) : Prop :=
  ∃ (i : Nat) (line : List Char), lines[i]? = some line ∧ f.range.start.line = i ∧ f.range.stop.line = i ∧
    Placed o suite line f

theorem startsAtName_headerRange (hname : name <:+: line) :
    StartsAtName line (headerRange o n line name) (String.ofList name) := startsAtName_of_infix hname rfl

theorem endsAfterName_headerRange (h : o.legacyRanges = false) :
    EndsAfterName (headerRange o n line name) (String.ofList name) := by
  simp [EndsAfterName, headerRange, Range.onLine, h, String.length_ofList]

theorem coversMethod_of_methodOn {className : List Char} (h : methodOn className n line = some f) :
    ∃ r name, f = .method r (String.ofList className) name ∧ r.start.line = n ∧ r.stop.line = n ∧
      CoversMethod line r name := by
  obtain ⟨header, hheader, rfl⟩ := Option.map_eq_some_iff.1 h
  obtain ⟨before, rest, hfirst⟩ := Grammar.exists_firstMethod hheader
  obtain ⟨hlength, hsuffix⟩ := Grammar.suffix_take_of_methodAt? hfirst.here
  have hkeyword := Grammar.keyword_of_methodAt? hfirst.here
  refine ⟨_, _, rfl, rfl, rfl, before, rest, header, hfirst, hkeyword, rfl, rfl, rfl, ?_, ?_⟩
  · rw [hfirst.split, List.length_append]
    omega
  · intro hblank
    have hbefore := hfirst.before_eq_nil fun c hc => hblank c (List.mem_append_left _ hc)
    rw [hfirst.split, hbefore, List.nil_append, String.toList_ofList]
    exact hsuffix

/-! ## Findings by their origins -/

variable {lines : List (List Char)} {suite : Bool} {path : String}

/-- A class, a suite and a procedure stand at their headers, a member at its name on the line of its annotation, and a
method on its line. -/
theorem Origin.placedIn (h : Origin o path suite lines f) (hf : f ≠ fileSuite path) : PlacedIn o suite lines f := by
  cases h with
  | file => exact absurd rfl hf
  | @anchor n line name hsuite hbelow hline hheader =>
    have hname : Grammar.className? line = some name := className?_of_suiteHeader? hheader
    exact ⟨n, line, hline, rfl, rfl, startsAtName_headerRange (Grammar.infix_of_className? hname),
      endsAfterName_headerRange⟩
  | @member n line m hsuite hline hmember =>
    unfold lineMembers at hmember
    split at hmember
    · obtain ⟨a, name, rfl, hname⟩ := Grammar.mem_suiteMembers hmember
      refine ⟨n, line, hline, rfl, rfl, startsAtName_of_infix hname rfl, fun _ => ?_⟩
      simp [EndsAfterName, Grammar.Attribute.member, Range.onLine, String.length_ofList]
    · cases hmember
  | @ofClass n line name hsuite hline hheader =>
    refine ⟨n, line, hline, rfl, rfl, startsAtName_headerRange (Grammar.infix_of_className? hheader), ?_⟩
    rintro (hsuite' | hlegacy)
    · rw [hsuite] at hsuite'
      cases hsuite'
    · exact endsAfterName_headerRange hlegacy
  | @method n line className _ hsuite hline hdeclared =>
    obtain ⟨r, method, rfl, hstart, hstop, hcovers⟩ := coversMethod_of_methodOn hdeclared
    exact ⟨n, line, hline, hstart, hstop, hcovers⟩
  | @procedure n line _ hsuite hline hdeclared =>
    obtain ⟨name, hname, rfl⟩ := Option.map_eq_some_iff.1 hdeclared
    exact ⟨n, line, hline, rfl, rfl, startsAtName_headerRange (Grammar.infix_of_procedureName? hname),
      endsAfterName_headerRange⟩

/-- Every finding but the one for the suite as a whole stands on a line of the text. -/
theorem placedIn_of_mem_scan {path text : String} (h : f ∈ (scan o path text).findings) (hf : f ≠ fileSuite path) :
    PlacedIn o (isSuite text) (Text.lines text.toList) f :=
  (origin_of_mem_scan h).placedIn hf

/-- Where names end after they start, so do the ranges. -/
theorem Placed.start_le_stop (hplaced : Placed o suite line f) (hlegacy : o.legacyRanges = false)
    (hline : f.range.start.line = f.range.stop.line) : f.range.start ≤ f.range.stop := by
  refine .inr ⟨hline, ?_⟩
  have hends : ∀ {r : Range} {name : String}, EndsAfterName r name → r.start.column ≤ r.stop.column := by
    intro r name hends
    rw [hends]
    omega
  cases f with
  | suite r name => exact hends (hplaced.2 hlegacy)
  | testClass r name => exact hends (hplaced.2 (.inr hlegacy))
  | procedure r parent name => exact hends (hplaced.2 hlegacy)
  | method r parent name =>
    obtain ⟨before, rest, header, -, -, -, hstart, hstop, -⟩ := hplaced
    change r.start.column ≤ r.stop.column
    omega
  | program r name => cases hplaced
  | assertion r name => cases hplaced

end Scan

/-! ## The scan of a text -/

/-- Every finding of a scan, but for the one for a suite as a whole, stands on one line of the text: a class, a suite, a
procedure and a member at the name that they report, a method from the start of its line. Members end with their name,
and so do the others where the options do not ask for the end column of old; then no range ends before it starts. -/
theorem scan_placed (o : Options) (path text : String) :
    (∀ f ∈ (scan o path text).findings, f ≠ Scan.fileSuite path →
      ∃ (i : Nat) (line : List Char), (Text.lines text.toList)[i]? = some line ∧ f.range.start.line = i ∧
        f.range.stop.line = i ∧ Scan.Placed o (isSuite text) line f) ∧
    (o.legacyRanges = false → ∀ f ∈ (scan o path text).findings, f.range.start ≤ f.range.stop) := by
  refine ⟨fun f hf hfile => Scan.placedIn_of_mem_scan hf hfile, ?_⟩
  intro hlegacy f hf
  by_cases hfile : f = Scan.fileSuite path
  · rw [hfile]
    exact .inr ⟨rfl, Int.le_refl 0⟩
  · obtain ⟨i, line, -, hstart, hstop, hplaced⟩ := Scan.placedIn_of_mem_scan hf hfile
    exact hplaced.start_le_stop hlegacy (hstart.trans hstop.symm)

theorem scan_placed_plainColumns :
    Finding.method (.onLine 1 0 16) "A" "run" ∈
        (scan { legacyRanges := false } "A.cls" "class A: // @Test.\n method void run()").findings ∧
      (∃ (i : Nat) (line : List Char),
        (Text.lines "class A: // @Test.\n method void run()".toList)[i]? = some line ∧ 1 = i ∧
          Scan.CoversMethod line (.onLine 1 0 16) "run") ∧
      ∀ f ∈ (scan { legacyRanges := false } "A.cls" "class A: // @Test.\n method void run()").findings,
        f.range.start ≤ f.range.stop := by
  have hmem : Finding.method (.onLine 1 0 16) "A" "run" ∈
      (scan { legacyRanges := false } "A.cls" "class A: // @Test.\n method void run()").findings := by
    decide
  obtain ⟨hplaced, horder⟩ := scan_placed { legacyRanges := false } "A.cls" "class A: // @Test.\n method void run()"
  obtain ⟨i, line, hline, hstart, -, hcovers⟩ := hplaced _ hmem (by decide)
  exact ⟨hmem, ⟨i, line, hline, Int.ofNat.inj hstart, hcovers⟩, horder rfl⟩

end TestDiscovery
