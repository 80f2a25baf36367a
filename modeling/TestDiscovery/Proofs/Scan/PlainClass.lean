-- SUMMARY: A class file: its first header, then one method for each line below that fits; no look above the first line.
import TestDiscovery.Proofs.Scan.MarkedLines

/-!
# Class files

The scan of a class passes over the lines up to the first header, and reads each line below it for a method if the line
above carries a test marker. A reading by numbers does the same: it goes back to line `n - 1` when it is at line `n`.
Since it does so only below a header, it never goes back from the first line.
-/

namespace TestDiscovery

namespace Scan

variable {o : Options} {lines before after rest : List (List Char)} {line name : List Char} {n h : Nat}

/-! ## The first header -/

/-- Line `h` of a text is the first one that is the header of a class. -/
structure FirstClass (lines : List (List Char)) (h : Nat) (line name : List Char) : Prop where
  here : lines[h]? = some line
  header : Grammar.className? line = some name
  first : ∀ i above, i < h → lines[i]? = some above → Grammar.className? above = none

theorem exists_firstClass (hsome : ∃ line ∈ lines, Grammar.className? line ≠ none) :
    ∃ h line name, FirstClass lines h line name := by
  induction lines with
  | nil => simp at hsome
  | cons line rest ih =>
    cases hheader : Grammar.className? line with
    | some name => exact ⟨0, line, name, rfl, hheader, by simp⟩
    | none =>
      obtain ⟨found, hfound, hname⟩ := hsome
      have hrest : found ∈ rest := (List.mem_cons.1 hfound).resolve_left fun heq => hname (heq ▸ hheader)
      obtain ⟨h, header, name, hfirst⟩ := ih ⟨found, hrest, hname⟩
      refine ⟨h + 1, header, name, hfirst.here, hfirst.header, ?_⟩
      intro i above hi habove
      cases i with
      | zero =>
        obtain rfl : line = above := Option.some.inj habove
        exact hheader
      | succ i => exact hfirst.first i above (Nat.lt_of_succ_lt_succ hi) habove

/-- The lines above the first header and those below it. -/
theorem FirstClass.split (hfirst : FirstClass lines h line name) :
    ∃ before after, lines = before ++ line :: after ∧ before.length = h ∧
      ∀ above ∈ before, Grammar.className? above = none := by
  obtain ⟨hlt, hget⟩ := List.getElem?_eq_some_iff.1 hfirst.here
  refine ⟨lines.take h, lines.drop (h + 1), ?_, ?_, ?_⟩
  · rw [← hget, ← List.drop_eq_getElem_cons hlt, List.take_append_drop]
  · rw [List.length_take, Nat.min_eq_left (Nat.le_of_lt hlt)]
  · intro above habove
    obtain ⟨i, hi, hat⟩ := List.mem_take_iff_getElem.1 habove
    refine hfirst.first i above (by omega) ?_
    rw [List.getElem?_eq_some_iff]
    exact ⟨by omega, hat⟩

/-- Lines without a header are passed over. -/
theorem classFrom_append (hbefore : ∀ above ∈ before, Grammar.className? above = none) :
    classFrom o n (before ++ rest) = classFrom o (n + before.length) rest := by
  induction before generalizing n with
  | nil => rfl
  | cons above before ih =>
    have hnext : n + 1 + before.length = n + (above :: before).length := by
      rw [List.length_cons]
      omega
    rw [List.cons_append, classFrom, hbefore above List.mem_cons_self]
    change classFrom o (n + 1) (before ++ rest) = _
    rw [ih fun l hl => hbefore l (List.mem_cons_of_mem _ hl), hnext]

/-- The numbers of the lines below line `h`. -/
theorem drop_range_lines : (List.range (before ++ line :: after).length).drop (before.length + 1) =
    List.range' (before.length + 1) after.length := by
  rw [List.range_eq_range', List.drop_range', List.length_append, List.length_cons]
  congr 1 <;> omega

theorem classFrom_of_firstClass (hfirst : FirstClass lines h line name) :
    classFrom o 0 lines = .testClass (headerRange o h line name) (String.ofList name) ::
      ((List.range lines.length).drop (h + 1)).filterMap (belowMarker (methodOn name) lines) := by
  obtain ⟨before, after, rfl, rfl, hbefore⟩ := hfirst.split
  rw [classFrom_append hbefore, classFrom, hfirst.header, drop_range_lines, ← markedFrom_eq_filterMap, Nat.zero_add,
    ← methodsFrom_eq_markedFrom]

theorem classFrom_of_noClass (hnone : ∀ line ∈ lines, Grammar.className? line = none) : classFrom o n lines = [] := by
  rw [← List.append_nil lines, classFrom_append hnone]
  rfl

/-! ## Reading by numbers -/

/-- Where a reading line by line stands: the class that it is in, what it has found, and the numbers of the lines that
it has gone back to. -/
structure Reading where
  className : Option (List Char) := none
  findings : List Finding := []
  lookedUp : List Int := []

/-- The line with a number. A negative number counts from the end of the text. -/
def lineAt? (lines : List (List Char)) (i : Int) : Option (List Char) :=
  if 0 ≤ i then lines[i.toNat]? else lines.reverse[(-1 - i).toNat]?

/-- The reading after one more line. Outside a class the line is read for a header. Inside, the reading goes back to
the line with the number before, and reads the line for a method if that one carries a test marker. -/
def Reading.next (o : Options) (lines : List (List Char)) (r : Reading) (numbered : List Char × Nat) : Reading :=
  let (line, n) := numbered
  match r.className with
  | none =>
    match Grammar.className? line with
    | some name =>
      { r with
        className := some name
        findings := r.findings ++ [.testClass (headerRange o n line name) (String.ofList name)] }
    | none => r
  | some name =>
    let above := (lineAt? lines (n - 1)).filter Grammar.Marker.test.occursIn
    { r with
      findings := r.findings ++ (above.bind fun _ => methodOn name n line).toList
      lookedUp := r.lookedUp ++ [(n : Int) - 1] }

/-- The reading of all lines of a text. -/
def Reading.ofLines (o : Options) (lines : List (List Char)) : Reading := lines.zipIdx.foldl (Reading.next o lines) {}

/-- Outside a class, lines without a header leave the reading as it is. -/
theorem Reading.foldl_outside {r : Reading} (hr : r.className = none)
    (hbefore : ∀ above ∈ before, Grammar.className? above = none) :
    (before.zipIdx n).foldl (Reading.next o lines) r = r := by
  induction before generalizing n with
  | nil => rfl
  | cons above before ih =>
    have hstep : Reading.next o lines r (above, n) = r := by
      simp [Reading.next, hr, hbefore above List.mem_cons_self]
    rw [List.zipIdx_cons, List.foldl_cons, hstep, ih fun l hl => hbefore l (List.mem_cons_of_mem _ hl)]

/-- Inside a class, a line below the first one adds the method that it declares below a marker. -/
theorem Reading.next_inside {r : Reading} (hr : r.className = some name) (hline : lines[n + 1]? = some line) :
    Reading.next o lines r (line, n + 1) =
      { r with
        findings := r.findings ++ (belowMarker (methodOn name) lines (n + 1)).toList
        lookedUp := r.lookedUp ++ [(n : Int)] } := by
  have habove : lineAt? lines ((n + 1 : Nat) - 1 : Int) = lines[n]? := by
    have hn : ((n + 1 : Nat) - 1 : Int) = n := by omega
    rw [hn, lineAt?, if_pos (by omega), Int.toNat_natCast]
  unfold Reading.next
  simp only [hr, habove, belowMarker_succ, hline, Option.bind_some]
  congr 3
  omega

/-- Inside a class, the lines from line `n + 1` on add what they declare, each after a look at the line above. -/
theorem Reading.foldl_inside {r : Reading} (hr : r.className = some name) (hrest : lines.drop (n + 1) = rest) :
    (rest.zipIdx (n + 1)).foldl (Reading.next o lines) r =
      { r with
        findings := r.findings ++ (List.range' (n + 1) rest.length).filterMap (belowMarker (methodOn name) lines)
        lookedUp := r.lookedUp ++ (List.range' n rest.length).map Int.ofNat } := by
  induction rest generalizing n r with
  | nil => simp
  | cons next rest ih =>
    have hnext : lines[n + 1]? = some next := by
      rw [← Nat.add_zero (n + 1), ← List.getElem?_drop, hrest]
      rfl
    have hdrop : lines.drop (n + 1 + 1) = rest := by
      rw [← List.tail_drop, hrest]
      rfl
    have hstep : Reading.next o lines r (next, n + 1) = _ := Reading.next_inside hr hnext
    have hclass : (Reading.next o lines r (next, n + 1)).className = some name := by rw [hstep, hr]
    rw [List.zipIdx_cons, List.foldl_cons, ih hclass hdrop, hstep, List.length_cons, List.range'_succ,
      List.filterMap_cons, List.range'_succ, List.map_cons]
    cases belowMarker (methodOn name) lines (n + 1) <;> simp

/-- A reading finds the class of the first header and its methods, and goes back to the lines from the header on. -/
theorem Reading.ofLines_of_firstClass (hfirst : FirstClass lines h line name) :
    Reading.ofLines o lines =
      { className := some name
        findings := .testClass (headerRange o h line name) (String.ofList name) ::
          ((List.range lines.length).drop (h + 1)).filterMap (belowMarker (methodOn name) lines)
        lookedUp := (List.range' h (lines.length - (h + 1))).map Int.ofNat } := by
  obtain ⟨before, after, hlines, rfl, hbefore⟩ := hfirst.split
  have hafter : lines.drop (before.length + 1) = after := by simp [hlines]
  have hcount : lines.length - (before.length + 1) = after.length := by rw [← hafter, List.length_drop]
  have hheader : Reading.next o lines {} (line, before.length) =
      { className := some name
        findings := [.testClass (headerRange o before.length line name) (String.ofList name)] } := by
    simp [Reading.next, hfirst.header]
  have hnumbered : lines.zipIdx = before.zipIdx ++ (line, before.length) :: after.zipIdx (before.length + 1) := by
    rw [hlines, List.zipIdx_append, List.zipIdx_cons, Nat.zero_add]
  rw [Reading.ofLines, hnumbered, List.foldl_append, List.foldl_cons, Reading.foldl_outside rfl hbefore, hheader,
    Reading.foldl_inside rfl hafter, hcount, List.range_eq_range', List.drop_range']
  simp [hcount]

theorem Reading.ofLines_of_noClass (hnone : ∀ line ∈ lines, Grammar.className? line = none) :
    Reading.ofLines o lines = {} := Reading.foldl_outside rfl hnone

/-- There is a first header, or none at all. -/
theorem exists_firstClass_or_noClass (lines : List (List Char)) :
    (∃ h line name, FirstClass lines h line name) ∨ ∀ line ∈ lines, Grammar.className? line = none := by
  by_cases hsome : ∃ line ∈ lines, Grammar.className? line ≠ none
  · exact .inl (exists_firstClass hsome)
  · exact .inr fun line hline => Decidable.byContradiction fun hname => hsome ⟨line, hline, hname⟩

/-- The scan hands the line above from line to line, and a reading by numbers goes back for it. They find the same. -/
theorem Reading.findings_ofLines (o : Options) (lines : List (List Char)) :
    (Reading.ofLines o lines).findings = classFrom o 0 lines := by
  rcases exists_firstClass_or_noClass lines with ⟨h, line, name, hfirst⟩ | hnone
  · rw [Reading.ofLines_of_firstClass hfirst, classFrom_of_firstClass hfirst]
  · rw [Reading.ofLines_of_noClass hnone, classFrom_of_noClass hnone]

/-- A reading goes back to lines of the text only, and to none by a negative number. -/
theorem Reading.lookedUp_ofLines {i : Int} (hi : i ∈ (Reading.ofLines o lines).lookedUp) :
    0 ≤ i ∧ i < lines.length := by
  rcases exists_firstClass_or_noClass lines with ⟨h, line, name, hfirst⟩ | hnone
  · rw [Reading.ofLines_of_firstClass hfirst] at hi
    obtain ⟨k, hk, rfl⟩ := List.mem_map.1 hi
    obtain ⟨hle, hlt⟩ := List.mem_range'_1.1 hk
    constructor
    · exact Int.natCast_nonneg k
    · change (k : Int) < _
      omega
  · rw [Reading.ofLines_of_noClass hnone] at hi
    cases hi

end Scan

/-! ## The scan of a class -/

/-- A text that is no suite, at the path of a class, is scanned as a plain class. -/
theorem scan_of_plainClass {o : Options} {path text : String} (hpath : o.classExtension.toList <:+ path.toList)
    (hsuite : isSuite text = false) : scan o path text = { findings := Scan.plainClass o text.toList } := by
  have hkind : SourceKind.ofPath? o path = some .classFile := by
    unfold SourceKind.ofPath?
    rw [if_pos (List.isSuffixOf_iff_suffix.2 hpath)]
  unfold scan
  rw [hkind, hsuite]

/-- The scan of a class finds nothing in a text without test markers or without a header. Otherwise it gives the class
of the first header and, in line order, the method of each line below it that declares one right below a line with a
test marker. It finds what a reading by numbers finds, and no such reading goes back by a negative number. -/
theorem scan_plainClass {o : Options} {path text : String} (hpath : o.classExtension.toList <:+ path.toList)
    (hsuite : isSuite text = false) :
    ((∀ line ∈ Text.lines text.toList, Grammar.Marker.test.occursIn line = false) ∨
        (∀ line ∈ Text.lines text.toList, Grammar.className? line = none) →
      scan o path text = { findings := [], events := [] }) ∧
    ((∃ line ∈ Text.lines text.toList, Grammar.Marker.test.occursIn line = true) →
      (∃ line ∈ Text.lines text.toList, Grammar.className? line ≠ none) →
      ∃ h line name, Scan.FirstClass (Text.lines text.toList) h line name ∧
        scan o path text =
          { findings := .testClass (Scan.headerRange o h line name) (String.ofList name) ::
              ((List.range (Text.lines text.toList).length).drop (h + 1)).filterMap
                (Scan.belowMarker (Scan.methodOn name) (Text.lines text.toList))
            events := [] }) ∧
    (scan o path text).findings =
      (if Grammar.Marker.test.occursIn text.toList then (Scan.Reading.ofLines o (Text.lines text.toList)).findings
        else []) ∧
    ∀ i ∈ (Scan.Reading.ofLines o (Text.lines text.toList)).lookedUp, 0 ≤ i ∧ i < (Text.lines text.toList).length := by
  have hscan := scan_of_plainClass hpath hsuite
  refine ⟨?_, ?_, ?_, ?_⟩
  · intro hnothing
    rw [hscan]
    unfold Scan.plainClass
    split
    · next hmarker =>
      obtain ⟨line, hline, hfits⟩ := Grammar.Marker.occursIn_iff_exists_line.1 hmarker
      rcases hnothing with hnone | hnone
      · exact absurd hfits (by simp [hnone line hline])
      · rw [Scan.classFrom_of_noClass hnone]
    · rfl
  · intro hmarker hheader
    obtain ⟨h, line, name, hfirst⟩ := Scan.exists_firstClass hheader
    refine ⟨h, line, name, hfirst, ?_⟩
    rw [hscan, Scan.plainClass, if_pos (Grammar.Marker.occursIn_iff_exists_line.2 hmarker),
      Scan.classFrom_of_firstClass hfirst]
  · rw [hscan, Scan.Reading.findings_ofLines]
    rfl
  · exact fun i hi => Scan.Reading.lookedUp_ofLines hi

theorem scan_plainClass_markedHeader :
    isSuite "class A: // @Test.\n method void run()\n method void stop()" = false ∧
      (∃ line name, Scan.FirstClass (Text.lines "class A: // @Test.\n method void run()\n method void stop()".toList) 0
        line name) ∧
      scan {} "A.cls" "class A: // @Test.\n method void run()\n method void stop()" =
        { findings := [.testClass (.onLine 0 6 1) "A", .method (.onLine 1 0 16) "A" "run"], events := [] } ∧
      scan {} "A.cls" "class A:\n method void run()" = { findings := [], events := [] } := by
  have hpath : ({} : Options).classExtension.toList <:+ "A.cls".toList := by decide
  have hsuite : isSuite "class A: // @Test.\n method void run()\n method void stop()" = false := by decide
  obtain ⟨h, line, name, hfirst, hscan⟩ := (scan_plainClass hpath hsuite).2.1 (by decide) (by decide)
  obtain rfl : h = 0 := Nat.eq_zero_of_not_pos fun hbelow =>
    absurd (hfirst.first 0 "class A: // @Test.".toList hbelow (by decide)) (by decide)
  obtain rfl : "class A: // @Test.".toList = line := Option.some.inj hfirst.here
  obtain rfl : ['A'] = name := Option.some.inj hfirst.header
  refine ⟨hsuite, ⟨_, _, hfirst⟩, hscan.trans (by rfl), ?_⟩
  exact (scan_plainClass hpath (by decide)).1 (.inl (by decide))

end TestDiscovery
