-- SUMMARY: Comment lines of a suite may be deleted: what is found is the same, moved up by the deleted lines above it.
import Mathlib.Data.Finset.Card
import TestDiscovery.Proofs.Grammar.Marker
import TestDiscovery.Proofs.Scan.SuiteClass
import TestDiscovery.Proofs.Text.Pieces

/-!
# Comment lines of suites

A comment in the text of a suite names no members and is no header, whatever it holds. So the text without some of its
comment lines is read like the whole text. The two readings are out of step by the deleted lines that are behind them:
each line that is left has a number that is less by as many lines as were deleted above it.
-/

namespace TestDiscovery

/-! ## Texts without some of their lines -/

/-- The lines, numbered from `n`, whose numbers are not deleted. -/
def Text.keptLines (deleted : Finset Nat) (n : Nat) (lines : List (List Char)) : List (List Char) :=
  ((lines.zipIdx n).filter fun numberedLine => numberedLine.2 ∉ deleted).map Prod.fst

/-- The text without the lines of the given numbers. -/
def Text.withoutLines (deleted : Finset Nat) (text : String) : String :=
  String.ofList (joinWith '\n' (keptLines deleted 0 (lines text.toList)))

/-- The number of a line after lines have been deleted: less by those above it. -/
def movedUp (deleted : Finset Nat) (n : Int) : Int := n - (deleted.filter fun k : Nat => (k : Int) < n).card

variable {deleted : Finset Nat} {n n' : Nat} {line name : List Char} {lines rest : List (List Char)}

theorem Text.keptLines_cons_of_mem (h : n ∈ deleted) :
    keptLines deleted n (line :: rest) = keptLines deleted (n + 1) rest := by
  simp [keptLines, h]

theorem Text.keptLines_cons_of_not_mem (h : n ∉ deleted) :
    keptLines deleted n (line :: rest) = line :: keptLines deleted (n + 1) rest := by
  simp [keptLines, h]

theorem Text.mem_of_mem_keptLines (h : line ∈ keptLines deleted n lines) : line ∈ lines := by
  obtain ⟨numberedLine, hkept, rfl⟩ := List.mem_map.1 h
  exact List.fst_mem_of_mem_zipIdx (List.mem_of_mem_filter hkept)

/-- The first line of a text is kept if it is not deleted, and the lines are cut at the same breaks again. -/
theorem Text.lines_withoutLines {text : String} (h : 0 ∉ deleted) :
    Text.lines (withoutLines deleted text).toList = keptLines deleted 0 (Text.lines text.toList) := by
  unfold withoutLines
  rw [String.toList_ofList]
  refine splitOn_joinWith ?_ fun line hline => not_mem_of_mem_splitOn (mem_of_mem_keptLines hline)
  obtain ⟨first, rest, hlines⟩ := List.exists_cons_of_ne_nil (splitOn_ne_nil '\n' text.toList)
  rw [Text.lines, hlines, keptLines_cons_of_not_mem h]
  exact List.cons_ne_nil first _

/-- What carries a marker without some of its lines carries it with them. -/
theorem isSuite_of_withoutLines {text : String} (h : 0 ∉ deleted)
    (hsuite : isSuite (Text.withoutLines deleted text) = true) : isSuite text = true := by
  obtain ⟨line, hline, hmarker⟩ := Grammar.Marker.occursIn_iff_exists_line.1 hsuite
  rw [Text.lines_withoutLines h] at hline
  exact Grammar.Marker.occursIn_iff_exists_line.2 ⟨line, Text.mem_of_mem_keptLines hline, hmarker⟩

/-! ## Numbers of lines -/

/-- The first line has no lines above it. -/
theorem movedUp_zero (deleted : Finset Nat) : movedUp deleted 0 = 0 := by
  simp [movedUp]

/-- Lines below a single deleted one have numbers that are one less. -/
theorem movedUp_singleton (k : Nat) (n : Int) : movedUp {k} n = if k < n then n - 1 else n := by
  unfold movedUp
  rw [Finset.filter_singleton]
  split <;> simp

/-- The deleted lines above the line after `n` are those above `n`, and `n` itself if it is one of them. -/
theorem filter_lt_succ (deleted : Finset Nat) (n : Nat) :
    (deleted.filter fun k : Nat => (k : Int) < (n + 1 : Nat)) =
      if n ∈ deleted then insert n (deleted.filter fun k : Nat => (k : Int) < n)
      else deleted.filter fun k : Nat => (k : Int) < n := by
  ext k
  split
  · next hn =>
    simp only [Finset.mem_filter, Finset.mem_insert]
    constructor
    · rintro ⟨hk, hlt⟩
      rcases Nat.eq_or_lt_of_le (Nat.lt_succ_iff.1 (Int.ofNat_lt.1 hlt)) with rfl | hlt
      · exact .inl rfl
      · exact .inr ⟨hk, Int.ofNat_lt.2 hlt⟩
    · rintro (rfl | ⟨hk, hlt⟩)
      · exact ⟨hn, by omega⟩
      · exact ⟨hk, by omega⟩
  · next hn =>
    simp only [Finset.mem_filter, and_congr_right_iff]
    intro hk
    have hne : k ≠ n := by
      rintro rfl
      exact hn hk
    omega

/-- Behind a deleted line the numbers do not go on. -/
theorem movedUp_succ_of_mem (h : n ∈ deleted) : movedUp deleted (n + 1 : Nat) = movedUp deleted n := by
  unfold movedUp
  rw [filter_lt_succ, if_pos h, Finset.card_insert_of_notMem (by simp)]
  omega

/-- Behind a line that is kept they do. -/
theorem movedUp_succ_of_not_mem (h : n ∉ deleted) : movedUp deleted (n + 1 : Nat) = movedUp deleted n + 1 := by
  unfold movedUp
  rw [filter_lt_succ, if_neg h]
  omega

/-! ## Findings on renumbered lines -/

/-- The range on the lines with other numbers. -/
def Range.renumber (number : Int → Int) (r : Range) : Range :=
  ⟨⟨number r.start.line, r.start.column⟩, ⟨number r.stop.line, r.stop.column⟩⟩

/-- The same member at the same columns, on the line with the other number. -/
def SuiteMember.renumber (number : Int → Int) (m : SuiteMember) : SuiteMember :=
  { m with range := m.range.renumber number }

/-- The same finding at the same columns, on the line with the other number. -/
def Finding.renumber (number : Int → Int) : Finding → Finding
  | suite range name => suite (range.renumber number) name
  | testClass range name => testClass (range.renumber number) name
  | program range name => program (range.renumber number) name
  | method range className name => method (range.renumber number) className name
  | procedure range programName name => procedure (range.renumber number) programName name
  | assertion range methodName => assertion (range.renumber number) methodName

namespace Scan

/-- The same suite on the lines with other numbers. -/
def SuiteBody.renumber (number : Int → Int) : SuiteBody → SuiteBody
  | anchored range name members => anchored (range.renumber number) name (members.map (SuiteMember.renumber number))
  | headless members => headless (members.map (SuiteMember.renumber number))

variable {o : Options} {number : Int → Int}

/-- What a line names does not depend on its number. -/
theorem lineMembers_renumber (h : (n' : Int) = number n) :
    lineMembers o n' line = (lineMembers o n line).map (SuiteMember.renumber number) := by
  have hmembers (a : Grammar.Attribute) : a.members n' line = (a.members n line).map (SuiteMember.renumber number) := by
    unfold Grammar.Attribute.members
    rw [List.map_map, h]
    rfl
  unfold lineMembers
  split
  · unfold Grammar.suiteMembers
    cases Grammar.parameters? (annotationFits o) line with
    | none => rfl
    | some inside =>
      simp only [List.map_flatMap]
      exact List.flatMap_congr fun a _ => hmembers a
  · rfl

theorem headerRange_renumber (h : (n' : Int) = number n) :
    headerRange o n' line name = (headerRange o n line name).renumber number := by
  unfold headerRange
  rw [h]
  rfl

theorem SuiteBody.findings_renumber (number : Int → Int) (body : SuiteBody) :
    (body.renumber number).findings = body.findings.map (Finding.renumber number) := by
  cases body with
  | anchored range name members =>
    simp only [SuiteBody.renumber, SuiteBody.findings, List.map_cons, List.map_map]
    rfl
  | headless members => rfl

theorem SuiteBody.events_renumber (number : Int → Int) (body : SuiteBody) (path : String) :
    (body.renumber number).events path = body.events path := by
  cases body with
  | anchored range name members => rfl
  | headless members => simp [SuiteBody.renumber, SuiteBody.events]

/-! ## Two readings of a suite -/

/-- Lines numbered from `n` and those of them that are kept give the same suite, if the numbers of the two are out of
step by the deleted lines above `n`, and if the deleted ones among the lines are comments. -/
theorem suiteFrom_keptLines (members : List SuiteMember) (hnumber : (n' : Int) = movedUp deleted n)
    (hcomment : ∀ numberedLine ∈ lines.zipIdx n, numberedLine.2 ∈ deleted →
      Grammar.isCommentLine numberedLine.1 = true) :
    suiteFrom o n' (members.map (SuiteMember.renumber (movedUp deleted))) (Text.keptLines deleted n lines) =
      (suiteFrom o n members lines).renumber (movedUp deleted) := by
  induction lines generalizing n n' members with
  | nil => rfl
  | cons line rest ih =>
    rw [List.zipIdx_cons, List.forall_mem_cons] at hcomment
    obtain ⟨hline, hrest⟩ := hcomment
    by_cases hdeleted : n ∈ deleted
    · -- The whole text goes on by one line, and the text without it stays where it is.
      have hnext : (n' : Int) = movedUp deleted (n + 1 : Nat) := by rw [movedUp_succ_of_mem hdeleted, hnumber]
      rw [Text.keptLines_cons_of_mem hdeleted, suiteFrom_cons_of_no_header (suiteHeader?_of_comment (hline hdeleted)),
        lineMembers_of_comment (hline hdeleted), List.append_nil, ih _ hnext hrest]
    · have hnext : ((n' + 1 : Nat) : Int) = movedUp deleted (n + 1 : Nat) := by
        rw [movedUp_succ_of_not_mem hdeleted, ← hnumber, Int.natCast_succ]
      rw [Text.keptLines_cons_of_not_mem hdeleted]
      cases hheader : suiteHeader? line with
      | some name =>
        rw [suiteFrom_cons_of_header hheader, suiteFrom_cons_of_header hheader, headerRange_renumber hnumber]
        rfl
      | none =>
        rw [suiteFrom_cons_of_no_header hheader, suiteFrom_cons_of_no_header hheader, lineMembers_renumber hnumber,
          ← List.map_append, ih _ hnext hrest]

/-- A line of a text that only counts as a line: a comment below the first line. -/
def CommentBelowFirst (text : String) (k : Nat) : Prop :=
  1 ≤ k ∧ ∃ line, (Text.lines text.toList)[k]? = some line ∧ Grammar.isCommentLine line = true

/-- The suite of a text without some of its comment lines. -/
theorem suiteBody_withoutLines {text : String} (hdeleted : ∀ k ∈ deleted, CommentBelowFirst text k) :
    suiteBody o (Text.withoutLines deleted text).toList = (suiteBody o text.toList).renumber (movedUp deleted) := by
  have hfirst : 0 ∉ deleted := fun h => absurd (hdeleted 0 h).1 (by omega)
  have hone : ((1 : Nat) : Int) = movedUp deleted (1 : Nat) := by
    rw [movedUp_succ_of_not_mem hfirst, Int.natCast_zero, movedUp_zero]
    rfl
  obtain ⟨first, rest, hlines⟩ := List.exists_cons_of_ne_nil (Text.splitOn_ne_nil '\n' text.toList)
  unfold suiteBody
  rw [Text.lines_withoutLines hfirst]
  unfold Text.lines
  rw [hlines, Text.keptLines_cons_of_not_mem hfirst, List.tail_cons, List.tail_cons]
  refine suiteFrom_keptLines [] hone ?_
  rintro ⟨line, k⟩ hline hk
  obtain ⟨-, comment, hcomment, hslashes⟩ := hdeleted k hk
  have hthere : (Text.lines text.toList)[k]? = some line := by
    rw [Text.lines, hlines]
    exact List.mem_zipIdx_iff_getElem?.1 (List.zipIdx_cons ▸ List.mem_cons_of_mem _ hline)
  obtain rfl : comment = line := Option.some.inj (hcomment.symm.trans hthere)
  exact hslashes

end Scan

/-! ## The scan of a suite -/

/-- Comment lines below the first line of a suite in a class file may be deleted, if what is left is a suite. Then the
same is logged, and the same is found in the same order and at the same columns, whatever the comments hold; the number
of each line is less by the deleted lines above it. If a single line is deleted, the numbers below it are one less, and
the others stay as they are. -/
theorem scan_withoutLines {o : Options} {path text : String} {deleted : Finset Nat}
    (hpath : o.classExtension.toList <:+ path.toList) (hdeleted : ∀ k ∈ deleted, Scan.CommentBelowFirst text k)
    (hsuite : isSuite (Text.withoutLines deleted text) = true) :
    scan o path (Text.withoutLines deleted text) =
        { findings := (scan o path text).findings.map (Finding.renumber (movedUp deleted))
          events := (scan o path text).events } ∧
      ∀ (k : Nat) (n : Int), deleted = {k} → movedUp deleted n = if k < n then n - 1 else n := by
  have hfirst : 0 ∉ deleted := fun h => absurd (hdeleted 0 h).1 (by omega)
  have hfile : Finding.renumber (movedUp deleted) (Scan.fileSuite path) = Scan.fileSuite path := by
    simp [Finding.renumber, Scan.fileSuite, Range.renumber, Range.onLine, movedUp_zero]
  constructor
  · rw [scan_of_suiteClass hpath hsuite, scan_of_suiteClass hpath (isSuite_of_withoutLines hfirst hsuite),
      Scan.suiteBody_withoutLines hdeleted, Scan.SuiteBody.findings_renumber, Scan.SuiteBody.events_renumber,
      List.map_cons, hfile]
  · rintro k n rfl
    exact movedUp_singleton k n

theorem scan_withoutLines_annotationAndHeader :
    Text.withoutLines {2, 3} "\n@testsuite(classes=\"A\")\n// @testsuite(classes=\"B\")\n//class C:\nclass D:" =
        "\n@testsuite(classes=\"A\")\nclass D:" ∧
      (scan {} "D.cls" "\n@testsuite(classes=\"A\")\nclass D:").findings =
        [.suite (.onLine 0 0 0) "[suite] D.cls", .suite (.onLine 4 6 1) "D",
          .testClass (.onLine 1 20 21) "A"].map (Finding.renumber (movedUp {2, 3})) := by
  have hshort : Text.withoutLines {2, 3}
      "\n@testsuite(classes=\"A\")\n// @testsuite(classes=\"B\")\n//class C:\nclass D:" =
        "\n@testsuite(classes=\"A\")\nclass D:" := by decide
  have hcomments : ∀ k ∈ ({2, 3} : Finset Nat), Scan.CommentBelowFirst
      "\n@testsuite(classes=\"A\")\n// @testsuite(classes=\"B\")\n//class C:\nclass D:" k := by
    simp only [Finset.forall_mem_insert, Finset.mem_singleton, forall_eq]
    exact ⟨⟨by decide, "// @testsuite(classes=\"B\")".toList, by decide⟩,
      ⟨by decide, "//class C:".toList, by decide⟩⟩
  have hscan := (@scan_withoutLines {} "D.cls" _ _ (by decide) hcomments (by decide)).1
  rw [hshort] at hscan
  refine ⟨hshort, ?_⟩
  rw [hscan]
  decide

end TestDiscovery
