-- SUMMARY: Lines below a test marker: the tests of a text are those of its adjacent pairs of lines, one by one.
import TestDiscovery.Proofs.Grammar.Marker
import TestDiscovery.Scan.Source

/-!
# Lines below markers

Methods and procedures are found in the same way: each line below a test marker is read for a declaration. The scan
hands the line above from one line to the next. What it finds is what the numbered lines give one by one, each read
with the line above it and no other.
-/

namespace TestDiscovery.Scan

/-- What `declared` makes of line `i` of a text, if there is a line right above it and it carries a test marker. -/
def belowMarker (declared : Nat → List Char → Option Finding) (lines : List (List Char)) : Nat → Option Finding
  | 0 => none
  | i + 1 => (lines[i]?.filter Grammar.Marker.test.occursIn).bind fun _ => lines[i + 1]?.bind (declared (i + 1))

/-- The test method that line `n` declares. -/
def methodOn (className : List Char) (n : Nat) (line : List Char) : Option Finding :=
  (Grammar.method? line).map (methodFinding n className)

/-- The test procedure that line `n` declares. -/
def procedureOn (o : Options) (n : Nat) (line : List Char) : Option Finding :=
  (Grammar.procedureName? line).map (procedureFinding o n line)

/-! ## Single lines -/

section

variable {declared : Nat → List Char → Option Finding} {lines lines' : List (List Char)} {i : Nat} {f : Finding}

theorem belowMarker_succ : belowMarker declared lines (i + 1) =
    (lines[i]?.filter Grammar.Marker.test.occursIn).bind fun _ => lines[i + 1]?.bind (declared (i + 1)) := rfl

/-- A finding on a line comes from that line, and the line above carries a marker. -/
theorem belowMarker_eq_some (h : belowMarker declared lines i = some f) :
    (∃ k above, i = k + 1 ∧ lines[k]? = some above ∧ Grammar.Marker.test.occursIn above = true) ∧
      ∃ line, lines[i]? = some line ∧ declared i line = some f := by
  cases i with
  | zero => cases h
  | succ k =>
    rw [belowMarker_succ] at h
    obtain ⟨above, habove, hread⟩ := Option.bind_eq_some_iff.1 h
    obtain ⟨habove, hmarker⟩ := Option.filter_eq_some_iff.1 habove
    exact ⟨⟨k, above, rfl, habove, hmarker⟩, Option.bind_eq_some_iff.1 hread⟩

/-- Only the line itself and the line above it are read. -/
theorem belowMarker_congr (habove : lines'[i]? = lines[i]?) (hline : lines'[i + 1]? = lines[i + 1]?) :
    belowMarker declared lines' (i + 1) = belowMarker declared lines (i + 1) := by
  rw [belowMarker_succ, belowMarker_succ, habove, hline]

/-- Nothing is found in a text without markers. -/
theorem filterMap_belowMarker_eq_nil {numbers : List Nat}
    (h : ∀ line ∈ lines, Grammar.Marker.test.occursIn line = false) :
    numbers.filterMap (belowMarker declared lines) = [] := by
  rw [List.filterMap_eq_nil_iff]
  intro i _
  rw [Option.eq_none_iff_forall_ne_some]
  intro f hf
  obtain ⟨⟨k, above, -, habove, hmarker⟩, -⟩ := belowMarker_eq_some hf
  rw [h above (List.mem_of_getElem? habove)] at hmarker
  cases hmarker

end

/-! ## Runs of lines -/

/-- What lines numbered from `n` give, each read below a line with a test marker; the line `above` precedes them. -/
def markedFrom (declared : Nat → List Char → Option Finding) (n : Nat) (above : List Char) :
    List (List Char) → List Finding
  | [] => []
  | line :: rest =>
    (if Grammar.Marker.test.occursIn above then declared n line else none).toList ++
      markedFrom declared (n + 1) line rest

/-- Handing the line above from one line to the next comes to reading each line with the one above it. -/
theorem markedFrom_eq_filterMap (declared : Nat → List Char → Option Finding) (before : List (List Char))
    (above : List Char) (rest : List (List Char)) :
    markedFrom declared (before.length + 1) above rest =
      (List.range' (before.length + 1) rest.length).filterMap (belowMarker declared (before ++ above :: rest)) := by
  induction rest generalizing before above with
  | nil => rfl
  | cons line rest ih =>
    have hread : belowMarker declared (before ++ above :: line :: rest) (before.length + 1) =
        if Grammar.Marker.test.occursIn above then declared (before.length + 1) line else none := by
      rw [belowMarker_succ]
      split <;> simp_all [Option.filter]
    have hnext := ih (before ++ [above]) line
    rw [List.length_append, List.length_singleton, List.append_assoc, List.singleton_append] at hnext
    rw [markedFrom, ← hread, hnext, List.length_cons, List.range'_succ, List.filterMap_cons]
    cases belowMarker declared (before ++ above :: line :: rest) (before.length + 1) <;> rfl

theorem methodsFrom_eq_markedFrom (className : List Char) (n : Nat) (above : List Char) (rest : List (List Char)) :
    methodsFrom className n above rest = markedFrom (methodOn className) n above rest := by
  induction rest generalizing n above with
  | nil => rfl
  | cons line rest ih =>
    rw [methodsFrom, markedFrom, ih]
    unfold methodOn
    split <;> simp_all

theorem proceduresFrom_eq_markedFrom (o : Options) (n : Nat) (above : List Char) (rest : List (List Char)) :
    proceduresFrom o n above rest = markedFrom (procedureOn o) n above rest := by
  induction rest generalizing n above with
  | nil => rfl
  | cons line rest ih =>
    rw [proceduresFrom, markedFrom, ih]
    unfold procedureOn
    split <;> simp_all

/-- The procedures of a program, whether it carries a marker or not. -/
theorem procedures_eq_filterMap (o : Options) (lines : List (List Char)) :
    procedures o lines = (List.range lines.length).filterMap (belowMarker (procedureOn o) lines) := by
  cases lines with
  | nil => rfl
  | cons first rest =>
    have hscan := markedFrom_eq_filterMap (procedureOn o) [] first rest
    rw [procedures, proceduresFrom_eq_markedFrom, List.length_cons, List.range_eq_range', List.range'_succ,
      List.filterMap_cons]
    exact hscan

end TestDiscovery.Scan
