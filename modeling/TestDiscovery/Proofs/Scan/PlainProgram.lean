-- SUMMARY: A program file: one procedure for each pair of adjacent lines that fits, and no need to test the whole text.
import TestDiscovery.Proofs.Scan.MarkedLines

/-!
# Program files

The scan of a program gives one procedure for each line that declares one below a line with a test marker. A text
without any marker is not read at all, which changes nothing: a marker in the text is a marker on a line. So what is
found on a line hangs on that line and on the one above it.
-/

namespace TestDiscovery

namespace Scan

/-- The findings that start on line `n`. -/
def onLine (n : Nat) (findings : List Finding) : List Finding := findings.filter fun f => f.range.start.line = n

theorem line_of_procedureOn {o : Options} {n : Nat} {line : List Char} {f : Finding}
    (h : procedureOn o n line = some f) : f.range.start.line = n := by
  obtain ⟨name, -, rfl⟩ := Option.map_eq_some_iff.1 h
  rfl

/-- What is found line by line stands on the line that it is found on. -/
theorem onLine_filterMap {found : Nat → Option Finding} (h : ∀ i f, found i = some f → f.range.start.line = i) (n : Nat)
    (numbers : List Nat) : onLine n (numbers.filterMap found) = (numbers.filter (· == n)).filterMap found := by
  induction numbers with
  | nil => rfl
  | cons i numbers ih =>
    unfold onLine at ih ⊢
    by_cases hi : i = n
    · subst hi
      cases hfound : found i with
      | none => simp [hfound, ih]
      | some f => simp [hfound, ih, h i f hfound]
    · cases hfound : found i with
      | none => simp [hfound, hi, ih]
      | some f =>
        have hline : ¬ f.range.start.line = n := by
          rw [h i f hfound]
          omega
        simp [hfound, hi, ih, hline]

/-- The procedure on a line of a program. -/
theorem onLine_procedures (o : Options) (lines : List (List Char)) (n : Nat) :
    onLine n (procedures o lines) = (belowMarker (procedureOn o) lines n).toList := by
  have hline : ∀ i f, belowMarker (procedureOn o) lines i = some f → f.range.start.line = i := by
    intro i f hf
    obtain ⟨-, line, -, hdeclared⟩ := belowMarker_eq_some hf
    exact line_of_procedureOn hdeclared
  have hbeyond : ¬ n < lines.length → belowMarker (procedureOn o) lines n = none := by
    intro hn
    rw [Option.eq_none_iff_forall_ne_some]
    intro f hf
    obtain ⟨-, line, hhere, -⟩ := belowMarker_eq_some hf
    exact hn (List.getElem?_eq_some_iff.1 hhere).1
  rw [procedures_eq_filterMap, onLine_filterMap hline, List.filter_beq, List.count_range]
  split
  · cases hfound : belowMarker (procedureOn o) lines n <;> simp [hfound]
  · next hn => simp [hbeyond hn]

/-- The test of the whole text changes nothing. -/
theorem plainProgram_eq_procedures (o : Options) (text : List Char) :
    plainProgram o text = procedures o (Text.lines text) := by
  unfold plainProgram
  split
  · rfl
  · next hmarker =>
    have hnone : ∀ line ∈ Text.lines text, Grammar.Marker.test.occursIn line = false := by
      intro line hline
      cases hfits : Grammar.Marker.test.occursIn line with
      | false => rfl
      | true => exact absurd (Grammar.Marker.occursIn_iff_exists_line.2 ⟨line, hline, hfits⟩) hmarker
    rw [procedures_eq_filterMap, filterMap_belowMarker_eq_nil hnone]

end Scan

/-- A text that is no suite, at the path of a program and not of a class, is scanned as a plain program. -/
theorem scan_of_plainProgram {o : Options} {path text : String} (hprogram : o.programExtension.toList <:+ path.toList)
    (hclass : ¬ o.classExtension.toList <:+ path.toList) (hsuite : isSuite text = false) :
    scan o path text = { findings := Scan.procedures o (Text.lines text.toList) } := by
  have hkind : SourceKind.ofPath? o path = some .programFile := by
    unfold SourceKind.ofPath?
    rw [if_neg (mt List.isSuffixOf_iff_suffix.1 hclass), if_pos (List.isSuffixOf_iff_suffix.2 hprogram)]
  unfold scan
  rw [hkind, hsuite, ← Scan.plainProgram_eq_procedures]

/-- The scan of a program gives, in line order, the procedure of each line that declares one right below a line with a
test marker, and logs nothing. It reads the lines as if there were no test of the whole text, and finds the same on a
line of two texts that agree on this line and on the one above. -/
theorem scan_plainProgram {o : Options} {path text : String} (hprogram : o.programExtension.toList <:+ path.toList)
    (hclass : ¬ o.classExtension.toList <:+ path.toList) (hsuite : isSuite text = false) :
    scan o path text =
      { findings := (List.range (Text.lines text.toList).length).filterMap
          (Scan.belowMarker (Scan.procedureOn o) (Text.lines text.toList))
        events := [] } ∧
    scan o path text = { findings := Scan.procedures o (Text.lines text.toList), events := [] } ∧
    Scan.onLine 0 (scan o path text).findings = [] ∧
    ∀ text' i, isSuite text' = false → (Text.lines text'.toList)[i]? = (Text.lines text.toList)[i]? →
      (Text.lines text'.toList)[i + 1]? = (Text.lines text.toList)[i + 1]? →
      Scan.onLine (i + 1) (scan o path text').findings = Scan.onLine (i + 1) (scan o path text).findings := by
  have hscan := scan_of_plainProgram hprogram hclass hsuite
  refine ⟨?_, hscan, ?_, ?_⟩
  · rw [hscan, Scan.procedures_eq_filterMap]
  · rw [hscan]
    exact Scan.onLine_procedures o _ 0
  · intro text' i hsuite' habove hline
    rw [scan_of_plainProgram hprogram hclass hsuite', hscan]
    change Scan.onLine (i + 1) (Scan.procedures o _) = Scan.onLine (i + 1) (Scan.procedures o _)
    rw [Scan.onLine_procedures, Scan.onLine_procedures, Scan.belowMarker_congr habove hline]

theorem scan_plainProgram_oneMarker :
    isSuite "@Test.\nprocedure a:\nprocedure b:" = false ∧
      scan {} "a.p" "@Test.\nprocedure a:\nprocedure b:" =
        { findings := [.procedure (.onLine 1 10 1) "" "a"], events := [] } ∧
      Scan.onLine 1 (scan {} "a.p" "@Test.\nprocedure a:\n@Test.").findings =
        Scan.onLine 1 (scan {} "a.p" "@Test.\nprocedure a:\nprocedure b:").findings := by
  have hprogram : ({} : Options).programExtension.toList <:+ "a.p".toList := by decide
  have hclass : ¬ ({} : Options).classExtension.toList <:+ "a.p".toList := by decide
  have hsuite : isSuite "@Test.\nprocedure a:\nprocedure b:" = false := by decide
  obtain ⟨hscan, -, -, hsame⟩ := scan_plainProgram hprogram hclass hsuite
  refine ⟨hsuite, hscan.trans (by rfl), ?_⟩
  exact hsame "@Test.\nprocedure a:\n@Test." 0 (by decide) (by decide) (by decide)

end TestDiscovery
