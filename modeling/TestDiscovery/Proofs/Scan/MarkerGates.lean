-- SUMMARY: The tests of a whole text for markers are open exactly if a single line carries the marker.
import TestDiscovery.Proofs.Scan.MarkedLines
import TestDiscovery.Proofs.Text.LowerLines

/-!
# Markers in texts and on lines

Two tests look at a text as a whole: whether it is a suite, and whether it has test markers at all. Both put the whole
text into lower case, while the scan reads single lines. They agree, since lower case goes line by line and no marker
goes over the end of a line.
-/

namespace TestDiscovery

/-- Some line of a text carries a marker. -/
def Grammar.Marker.OnSomeLine (m : Marker) (text : List Char) : Prop :=
  ∃ line ∈ Text.lines text, m.occursIn line = true

instance (m : Grammar.Marker) (text : List Char) : Decidable (m.OnSomeLine text) :=
  inferInstanceAs (Decidable (∃ line ∈ Text.lines text, m.occursIn line = true))

/-- A marker on a line is one in the lower case of the text, between two line breaks. -/
theorem Grammar.Marker.onSomeLine_iff_lower {m : Marker} {text : List Char} :
    m.OnSomeLine text ↔ ∃ line ∈ Text.lines (Text.toLower text), m.text <:+: line := by
  unfold OnSomeLine
  simp [Text.lines_toLower, occursIn, Text.occurs_iff]

/-- A text carries a marker if one of its lines does, and this can be seen in its lower case. So it is a suite if some line
has the marker of suites, and the scans of plain classes and programs read its lines if one of them has the marker of
tests, and find nothing otherwise. -/
theorem marker_gates (o : Options) (text : String) :
    (∀ m : Grammar.Marker, m.occursIn text.toList = true ↔ m.OnSomeLine text.toList) ∧
    (∀ m : Grammar.Marker, m.OnSomeLine text.toList ↔
      ∃ line ∈ Text.lines (Text.toLower text.toList), m.text <:+: line) ∧
    (isSuite text = true ↔ Grammar.Marker.suite.OnSomeLine text.toList) ∧
    (Scan.plainClass o text.toList =
      if Grammar.Marker.test.OnSomeLine text.toList then Scan.classFrom o 0 (Text.lines text.toList) else []) ∧
    (Scan.plainProgram o text.toList =
      if Grammar.Marker.test.OnSomeLine text.toList then Scan.procedures o (Text.lines text.toList) else []) := by
  have hline (m : Grammar.Marker) : m.occursIn text.toList = true ↔ m.OnSomeLine text.toList :=
    Grammar.Marker.occursIn_iff_exists_line
  refine ⟨hline, fun m => m.onSomeLine_iff_lower, hline .suite, ?_, ?_⟩
  · unfold Scan.plainClass
    simp only [hline]
  · unfold Scan.plainProgram
    simp only [hline]

end TestDiscovery
