-- SUMMARY: A suite in a class file: the first header below the first line, and the members named above it.
import Mathlib.Data.Nat.Find
import TestDiscovery.Scan.Source

/-!
# Suites in class files

The scan of a suite keeps members back until it comes to a header. So it gives the members of all annotations between
the first line and the first header, in order, and it loses them together if there is no header. What stands on the
first line and below the header has no influence.
-/

namespace TestDiscovery

namespace Scan

/-! ## Single lines -/

/-- The class whose header a line of a suite is. A comment and a line with a suite marker are no headers. -/
def suiteHeader? (line : List Char) : Option (List Char) :=
  if Grammar.isCommentLine line || Grammar.Marker.suite.occursIn line then none else Grammar.className? line

/-- The members that line `n` of a suite names. A comment names none. -/
def lineMembers (o : Options) (n : Nat) (line : List Char) : List SuiteMember :=
  if Grammar.Marker.suite.occursIn line && !Grammar.isCommentLine line then
    Grammar.suiteMembers (annotationFits o) n line
  else []

/-- The members that numbered lines name. -/
def linesMembers (o : Options) (numbered : List (List Char × Nat)) : List SuiteMember :=
  numbered.flatMap fun (line, n) => lineMembers o n line

variable {o : Options} {n : Nat} {members : List SuiteMember} {line name : List Char} {rest : List (List Char)}

theorem className?_of_suiteHeader? (h : suiteHeader? line = some name) : Grammar.className? line = some name := by
  unfold suiteHeader? at h
  split at h
  · cases h
  · exact h

/-- A comment is no header, and names no members. -/
theorem suiteHeader?_of_comment (h : Grammar.isCommentLine line = true) : suiteHeader? line = none := by
  simp [suiteHeader?, h]

theorem lineMembers_of_comment (h : Grammar.isCommentLine line = true) : lineMembers o n line = [] := by
  simp [lineMembers, h]

theorem suiteFrom_cons_of_header (h : suiteHeader? line = some name) :
    suiteFrom o n members (line :: rest) = .anchored (headerRange o n line name) (String.ofList name) members := by
  unfold suiteHeader? at h
  split at h
  · cases h
  · next hplain =>
    simp only [Bool.or_eq_true, not_or, Bool.not_eq_true] at hplain
    unfold suiteFrom
    simp [hplain.1, hplain.2, h]

/-- A line without a header adds its members to those kept back. -/
theorem suiteFrom_cons_of_no_header (h : suiteHeader? line = none) :
    suiteFrom o n members (line :: rest) = suiteFrom o (n + 1) (members ++ lineMembers o n line) rest := by
  unfold suiteHeader? at h
  unfold lineMembers
  conv_lhs => unfold suiteFrom
  cases hcomment : Grammar.isCommentLine line with
  | true => simp
  | false =>
    cases hmarker : Grammar.Marker.suite.occursIn line with
    | true => simp
    | false =>
      rw [hcomment, hmarker] at h
      have hname : Grammar.className? line = none := h
      simp [hname]

/-! ## Runs of lines -/

/-- Lines without a header leave the members that they name. -/
theorem suiteFrom_append {before : List (List Char)} (h : ∀ line ∈ before, suiteHeader? line = none) :
    suiteFrom o n members (before ++ rest) =
      suiteFrom o (n + before.length) (members ++ linesMembers o (before.zipIdx n)) rest := by
  induction before generalizing n members with
  | nil => simp [linesMembers]
  | cons line before ih =>
    have hline : suiteHeader? line = none := h line List.mem_cons_self
    have hnext : n + 1 + before.length = n + (line :: before).length := by
      rw [List.length_cons]
      omega
    rw [List.cons_append, suiteFrom_cons_of_no_header hline, ih fun l hl => h l (List.mem_cons_of_mem _ hl), hnext]
    simp [linesMembers]

/-- Line `a` is the first one below the first line of a text that is the header of a class. -/
structure FirstHeader (lines : List (List Char)) (a : Nat) (line name : List Char) : Prop where
  below : 1 ≤ a
  here : lines[a]? = some line
  header : suiteHeader? line = some name
  first : ∀ i above, 1 ≤ i → i < a → lines[i]? = some above → suiteHeader? above = none

/-- No line below the first line of a text is the header of a class. -/
def NoHeader (lines : List (List Char)) : Prop := ∀ line ∈ lines.tail, suiteHeader? line = none

/-- There is a first header, or none at all. -/
theorem exists_firstHeader_or_noHeader (lines : List (List Char)) :
    (∃ a line name, FirstHeader lines a line name) ∨ NoHeader lines := by
  by_cases hsome : ∃ a, 1 ≤ a ∧ ∃ line name, lines[a]? = some line ∧ suiteHeader? line = some name
  · left
    classical
    obtain ⟨hbelow, line, name, hhere, hheader⟩ := Nat.find_spec hsome
    refine ⟨Nat.find hsome, line, name, hbelow, hhere, hheader, ?_⟩
    intro i above hi hia habove
    by_contra hname
    obtain ⟨found, hfound⟩ := Option.ne_none_iff_exists'.1 hname
    exact Nat.find_min hsome hia ⟨hi, above, found, habove, hfound⟩
  · right
    intro line hline
    obtain ⟨i, hi⟩ := List.getElem?_of_mem hline
    by_contra hname
    obtain ⟨found, hfound⟩ := Option.ne_none_iff_exists'.1 hname
    rw [List.getElem?_tail] at hi
    exact hsome ⟨i + 1, by omega, line, found, hi, hfound⟩

/-- The lines between the first line and the first header. -/
theorem FirstHeader.split {lines : List (List Char)} {a : Nat} (h : FirstHeader lines a line name) :
    ∃ first before after, lines = first :: (before ++ line :: after) ∧ before.length + 1 = a ∧
      ∀ above ∈ before, suiteHeader? above = none := by
  obtain ⟨hbelow, hhere, -, hfirst⟩ := h
  cases lines with
  | nil => simp at hhere
  | cons first rest =>
    obtain ⟨k, rfl⟩ : ∃ k, a = k + 1 := Nat.exists_eq_add_of_le' hbelow
    rw [List.getElem?_cons_succ] at hhere
    obtain ⟨hlt, hget⟩ := List.getElem?_eq_some_iff.1 hhere
    refine ⟨first, rest.take k, rest.drop (k + 1), ?_, ?_, ?_⟩
    · rw [← hget, ← List.drop_eq_getElem_cons hlt, List.take_append_drop]
    · rw [List.length_take, Nat.min_eq_left (Nat.le_of_lt hlt)]
    · intro above habove
      obtain ⟨i, hi, hat⟩ := List.mem_take_iff_getElem.1 habove
      have hik : i < k := by omega
      refine hfirst (i + 1) above (by omega) (by omega) ?_
      rw [List.getElem?_cons_succ, List.getElem?_eq_some_iff]
      exact ⟨by omega, hat⟩

/-- Other lines with the same lines from the second to the header have the same first header, and the same members
above it. -/
theorem FirstHeader.congr {lines lines' : List (List Char)} {a : Nat} (h : FirstHeader lines a line name)
    (hsame : ∀ i, 1 ≤ i → i ≤ a → lines'[i]? = lines[i]?) :
    FirstHeader lines' a line name ∧ (lines'.zipIdx.take a).tail = (lines.zipIdx.take a).tail := by
  constructor
  · constructor
    case below => exact h.below
    case here => rw [hsame a h.below (Nat.le_refl a), h.here]
    case header => exact h.header
    case first =>
      intro i above hi hia habove
      rw [hsame i hi (Nat.le_of_lt hia)] at habove
      exact h.first i above hi hia habove
  · apply List.ext_getElem?
    intro i
    rw [List.getElem?_tail, List.getElem?_tail, List.getElem?_take, List.getElem?_take]
    by_cases hia : i + 1 < a
    · rw [if_pos hia, if_pos hia, List.getElem?_zipIdx, List.getElem?_zipIdx, hsame (i + 1) (by omega) (by omega)]
    · rw [if_neg hia, if_neg hia]

/-! ## The suite of a text -/

variable {text : List Char}

theorem suiteBody_of_firstHeader {a : Nat} (h : FirstHeader (Text.lines text) a line name) :
    suiteBody o text = .anchored (headerRange o a line name) (String.ofList name)
      (linesMembers o ((Text.lines text).zipIdx.take a).tail) := by
  obtain ⟨first, before, after, hlines, rfl, hbefore⟩ := h.split
  have hnumbered : ((Text.lines text).zipIdx.take (before.length + 1)).tail = before.zipIdx 1 := by
    rw [hlines, List.zipIdx_cons, List.take_succ_cons, List.tail_cons, List.zipIdx_append]
    simp
  unfold suiteBody
  rw [hnumbered, hlines, List.tail_cons, suiteFrom_append hbefore, suiteFrom_cons_of_header h.header, List.nil_append,
    Nat.add_comm]

theorem suiteBody_of_noHeader (h : NoHeader (Text.lines text)) :
    suiteBody o text = .headless (linesMembers o (Text.lines text).zipIdx.tail) := by
  unfold suiteBody
  rw [← List.append_nil (Text.lines text).tail, suiteFrom_append h, List.nil_append, List.tail_zipIdx]
  rfl

end Scan

/-! ## The scan of a suite -/

/-- A suite text at the path of a class is scanned as one. -/
theorem scan_of_suiteClass {o : Options} {path text : String} (hpath : o.classExtension.toList <:+ path.toList)
    (hsuite : isSuite text = true) :
    scan o path text =
      { findings := Scan.fileSuite path :: (Scan.suiteBody o text.toList).findings
        events := (Scan.suiteBody o text.toList).events path } := by
  have hkind : SourceKind.ofPath? o path = some .classFile := by
    unfold SourceKind.ofPath?
    rw [if_pos (List.isSuffixOf_iff_suffix.2 hpath)]
  unfold scan
  rw [hkind, hsuite]

/-- The scan of a suite gives the file, the class of the first header below the first line, and as test classes the
members that the lines between them name, whatever stands on the first line and below the header. Without a header it
gives the file alone, and logs how many members are lost. -/
theorem scan_suiteClass {o : Options} {path text : String} (hpath : o.classExtension.toList <:+ path.toList)
    (hsuite : isSuite text = true) :
    ((∃ a line name, Scan.FirstHeader (Text.lines text.toList) a line name) ∨ Scan.NoHeader (Text.lines text.toList)) ∧
    (∀ a line name, Scan.FirstHeader (Text.lines text.toList) a line name →
      scan o path text =
        { findings :=
            Scan.fileSuite path :: .suite (Scan.headerRange o a line name) (String.ofList name) ::
              (Scan.linesMembers o ((Text.lines text.toList).zipIdx.take a).tail).map Scan.memberFinding
          events := [] } ∧
      ∀ text', isSuite text' = true →
        (∀ i, 1 ≤ i → i ≤ a → (Text.lines text'.toList)[i]? = (Text.lines text.toList)[i]?) →
        scan o path text' = scan o path text) ∧
    (Scan.NoHeader (Text.lines text.toList) →
      scan o path text =
        { findings := [Scan.fileSuite path]
          events :=
            if (Scan.linesMembers o (Text.lines text.toList).zipIdx.tail).length = 0 then []
            else [.headlessSuite path (Scan.linesMembers o (Text.lines text.toList).zipIdx.tail).length] } ∧
      ∀ text', isSuite text' = true → (Text.lines text'.toList).tail = (Text.lines text.toList).tail →
        scan o path text' = scan o path text) := by
  refine ⟨Scan.exists_firstHeader_or_noHeader _, ?_, ?_⟩
  · intro a line name hheader
    constructor
    · rw [scan_of_suiteClass hpath hsuite, Scan.suiteBody_of_firstHeader hheader]
      rfl
    · intro text' hsuite' hsame
      obtain ⟨hheader', hmembers⟩ := hheader.congr hsame
      rw [scan_of_suiteClass hpath hsuite', scan_of_suiteClass hpath hsuite, Scan.suiteBody_of_firstHeader hheader',
        Scan.suiteBody_of_firstHeader hheader, hmembers]
  · intro hnone
    constructor
    · rw [scan_of_suiteClass hpath hsuite, Scan.suiteBody_of_noHeader hnone]
      simp [Scan.SuiteBody.findings, Scan.SuiteBody.events]
    · intro text' hsuite' hsame
      rw [scan_of_suiteClass hpath hsuite', scan_of_suiteClass hpath hsuite]
      unfold Scan.suiteBody
      rw [hsame]

theorem scan_suiteClass_anchored :
    isSuite "\n@testsuite(classes=\"A\")\nclass B:" = true ∧
      scan {} "B.cls" "\n@testsuite(classes=\"A\")\nclass B:" =
        { findings := [.suite (.onLine 0 0 0) "[suite] B.cls", .suite (.onLine 2 6 1) "B", .testClass (.onLine 1 20 21) "A"]
          events := [] } := by
  have hpath : ({} : Options).classExtension.toList <:+ "B.cls".toList := by decide
  have hsuite : isSuite "\n@testsuite(classes=\"A\")\nclass B:" = true := by decide
  have hheader : Scan.FirstHeader (Text.lines "\n@testsuite(classes=\"A\")\nclass B:".toList) 2 "class B:".toList
      ['B'] := by
    refine ⟨by decide, by decide, by decide, ?_⟩
    intro i above hi hia habove
    obtain rfl : i = 1 := by omega
    obtain rfl : "@testsuite(classes=\"A\")".toList = above := Option.some.inj habove
    decide
  refine ⟨hsuite, ((scan_suiteClass hpath hsuite).2.1 2 _ _ hheader).1.trans ?_⟩
  rfl

end TestDiscovery
