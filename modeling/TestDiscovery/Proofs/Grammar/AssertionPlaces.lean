-- SUMMARY: Assertions as they are written, and the calls of a text: one on each line that has an assertion, and no other.
import TestDiscovery.Proofs.Grammar.TrailingBlanks

/-!
# Assertions on their lines

An assertion is written as the name of the assertion class, the name of a method, perhaps blanks, and arguments between
parentheses. The name of the method is a run that cannot be cut short, since what has to follow it is a blank or a
parenthesis; only where the arguments end is open, and they end with the last parenthesis of the line. So one call is
read from a line, at the first place where an assertion starts, and an earlier place where none does is passed over.
-/

namespace TestDiscovery

namespace Grammar

open Text

/-! ## Assertions -/

/-- An assertion: the class with its colon in some letter case, the name of a method, perhaps blanks, and what stands
between the parentheses. -/
structure Assertion where
  keyword : List Char
  name : List Char
  gap : List Char
  arguments : List Char
  spelled : Spells anyCase assertWord keyword
  name_ne : name ≠ []
  name_run : ∀ c ∈ name, inAssertName c = true
  gap_blank : AllBlank gap

namespace Assertion

/-- The assertion with its parentheses. -/
def text (a : Assertion) : List Char := a.keyword ++ (a.name ++ (a.gap ++ '(' :: (a.arguments ++ [')'])))

variable (a : Assertion) (after : List Char)

theorem text_append : a.text ++ after = a.keyword ++ (a.name ++ (a.gap ++ '(' :: (a.arguments ++ ')' :: after))) := by
  simp [text]

theorem text_append_ne : a.text ++ after ≠ [] := by simp [text]

/-- The run that the name is ends at the blanks or the parenthesis behind it. -/
theorem stopsRun_gap : StopsRun inAssertName (a.gap ++ '(' :: after) := by
  intro c hc
  cases hgap : a.gap with
  | nil =>
    rw [hgap] at hc
    obtain rfl : '(' = c := Option.some.inj hc
    decide
  | cons d gap =>
    rw [hgap] at hc
    obtain rfl : d = c := Option.some.inj hc
    simp [inAssertName, a.gap_blank d (hgap ▸ List.mem_cons_self)]

/-- The name is the whole run behind the keyword. -/
theorem takeWhile_name : (a.name ++ (a.gap ++ '(' :: after)).takeWhile inAssertName = a.name :=
  takeWhile_append_of_stopsRun a.name_run (a.stopsRun_gap after)

theorem trimLeft_dropWhile_name :
    trimLeft ((a.name ++ (a.gap ++ '(' :: after)).dropWhile inAssertName) = '(' :: after := by
  rw [dropWhile_append_of_stopsRun a.name_run (a.stopsRun_gap after), trimLeft_append_left a.gap_blank,
    trimLeft_eq_self (by rfl)]

/-- An assertion may run on to the last parenthesis behind it. -/
theorem exists_unclosed : ∃ (b : Assertion) (rest : List Char), a.text ++ after = b.text ++ rest ∧ ')' ∉ rest := by
  have hclosed : ')' ∈ a.arguments ++ ')' :: after := by simp
  obtain ⟨inside, rest, hsplit, hrest⟩ := exists_last_of_mem hclosed
  refine ⟨{ a with arguments := inside }, rest, ?_, hrest⟩
  rw [text_append, text_append, hsplit]

end Assertion

/-! ## Reading -/

variable {s line before after : List Char} {a : Assertion}

/-- What follows an assertion that is read has no parenthesis that could close it. -/
theorem afterAssertion?_eq_some_iff :
    afterAssertion? s = some after ↔ ')' ∉ after ∧ ∃ a : Assertion, s = a.text ++ after := by
  constructor
  · intro h
    unfold afterAssertion? at h
    split at h
    · cases h
    · next r hkeyword =>
      obtain ⟨keyword, hspelled, rfl⟩ := afterKeyword?_eq_some_iff.1 hkeyword
      split at h
      · cases h
      · next hname =>
        split at h
        · next arguments hopen =>
          obtain ⟨⟨inside, rest⟩, hcut, rfl⟩ := Option.map_eq_some_iff.1 h
          obtain ⟨rfl, hafter⟩ := append_of_splitLast? hcut
          refine ⟨hafter, ⟨keyword, r.takeWhile inAssertName, (r.dropWhile inAssertName).takeWhile isBlank, inside, hspelled,
            fun hnil => hname (List.isEmpty_iff.2 hnil), fun c hc => List.mem_takeWhile_imp hc, allBlank_takeWhile _⟩, ?_⟩
          rw [Assertion.text_append]
          simp only
          rw [← hopen, takeWhile_append_trimLeft, List.takeWhile_append_dropWhile]
        · cases h
  · rintro ⟨hafter, a, rfl⟩
    have hname : a.name.isEmpty = false := by simp [a.name_ne]
    unfold afterAssertion?
    rw [afterKeyword?_eq_some_iff.2 ⟨a.keyword, a.spelled, a.text_append after⟩]
    simp only [a.takeWhile_name, a.trimLeft_dropWhile_name, hname, splitLast?_append_cons hafter]
    rfl

/-- The first assertion of a line stands behind `before`, and the last parenthesis of the line closes it. -/
structure FirstAssertion (line before : List Char) (a : Assertion) (after : List Char) : Prop where
  split : line = before ++ (a.text ++ after)
  closed : ')' ∉ after
  first : ∀ before' (a' : Assertion) after', line = before' ++ (a'.text ++ after') → before.length ≤ before'.length

theorem assertionAt?_eq_some_iff {column : Nat} {found : Nat × List Char} :
    assertionAt? column s = some found ↔
      ∃ (a : Assertion) (after : List Char), s = a.text ++ after ∧ ')' ∉ after ∧ found = (column, a.text) := by
  unfold assertionAt?
  constructor
  · intro h
    obtain ⟨after, hread, rfl⟩ := Option.map_eq_some_iff.1 h
    obtain ⟨hafter, a, rfl⟩ := afterAssertion?_eq_some_iff.1 hread
    exact ⟨a, after, rfl, hafter, by simp⟩
  · rintro ⟨a, after, rfl, hafter, rfl⟩
    simp [afterAssertion?_eq_some_iff.2 ⟨hafter, a, rfl⟩]

/-- The state of the search is the column. -/
theorem foldl_column (before : List Char) (column : Nat) :
    before.foldl (fun column _ => column + 1) column = column + before.length := by
  induction before generalizing column with
  | nil => rfl
  | cons c before ih =>
    rw [List.foldl_cons, ih, List.length_cons]
    omega

theorem finds_assertionAt? (line : List Char) :
    Finds assertionAt? (fun column _ => column + 1) 0 line
      (fun before (place : Assertion × List Char) => line = before ++ (place.1.text ++ place.2) ∧ ')' ∉ place.2)
      fun before place => (before.length, place.1.text) where
  look_iff := by
    rintro before rest found rfl
    rw [foldl_column, Nat.zero_add, assertionAt?_eq_some_iff]
    constructor
    · rintro ⟨a, after, rfl, hafter, rfl⟩
      exact ⟨(a, after), ⟨rfl, hafter⟩, rfl⟩
    · rintro ⟨⟨a, after⟩, ⟨hsplit, hafter⟩, rfl⟩
      exact ⟨a, after, List.append_cancel_left hsplit, hafter, rfl⟩
  inside _ place hat := ⟨place.1.text ++ place.2, hat.1, place.1.text_append_ne place.2⟩

/-- What is read from a line is its first assertion, up to the last parenthesis. -/
theorem assertion?_eq_some_iff {found : Nat × List Char} :
    assertion? line = some found ↔
      ∃ before a after, FirstAssertion line before a after ∧ found = (before.length, a.text) := by
  rw [assertion?, assertionFrom?_eq_leftmost, (finds_assertionAt? line).leftmost_eq_some_iff]
  constructor
  · rintro ⟨before, ⟨a, after⟩, ⟨hsplit, hafter⟩, hfirst, rfl⟩
    refine ⟨before, a, after, ⟨hsplit, hafter, fun before' a' after' hsplit' => ?_⟩, rfl⟩
    obtain ⟨b, rest, hrest, hunclosed⟩ := a'.exists_unclosed after'
    exact hfirst before' (b, rest) ⟨hrest ▸ hsplit', hunclosed⟩
  · rintro ⟨before, a, after, hfirst, rfl⟩
    exact ⟨before, (a, after), ⟨hfirst.split, hfirst.closed⟩,
      fun before' place hat => hfirst.first before' place.1 place.2 hat.1, rfl⟩

/-- A line with an assertion has a first one. -/
theorem exists_firstAssertion (h : line = before ++ (a.text ++ after)) :
    ∃ before a after, FirstAssertion line before a after := by
  obtain ⟨before, ⟨a, after, hsplit⟩, hfirst⟩ := exists_shortest
    (fun before => ∃ (a : Assertion) (after : List Char), line = before ++ (a.text ++ after)) ⟨a, after, h⟩
  obtain ⟨b, rest, hrest, hunclosed⟩ := a.exists_unclosed after
  exact ⟨before, b, rest, hrest ▸ hsplit, hunclosed, fun before' a' after' hsplit' => hfirst before' ⟨a', after', hsplit'⟩⟩

/-! ## The calls of a text -/

/-- The call on line `n`. -/
def callOn (n : Nat) (line : List Char) : Option AssertCall :=
  (assertion? line).map fun found => ⟨.onLine n found.1 (found.1 + found.2.length), String.ofList found.2⟩

theorem assertCallsFrom_eq_filterMap (n : Nat) (lines : List (List Char)) :
    assertCallsFrom n lines = (lines.zipIdx n).filterMap fun numbered => callOn numbered.2 numbered.1 := by
  induction lines generalizing n with
  | nil => rfl
  | cons line rest ih =>
    rw [assertCallsFrom, ih, List.zipIdx_cons, List.filterMap_cons]
    unfold callOn
    cases assertion? line <;> rfl

theorem line_of_callOn {n : Nat} {call : AssertCall} (h : callOn n line = some call) : call.range.start.line = n := by
  obtain ⟨found, -, rfl⟩ := Option.map_eq_some_iff.1 h
  rfl

theorem mem_assertCalls_iff {source : String} {call : AssertCall} :
    call ∈ assertCalls source ↔
      ∃ (i : Nat) (line : List Char), (lines source.toList)[i]? = some line ∧ callOn i line = some call := by
  rw [assertCalls, assertCallsFrom_eq_filterMap, List.mem_filterMap]
  constructor
  · rintro ⟨⟨line, i⟩, hmem, hcall⟩
    exact ⟨i, line, List.mem_zipIdx_iff_getElem?.1 hmem, hcall⟩
  · rintro ⟨i, line, hline, hcall⟩
    exact ⟨(line, i), List.mem_zipIdx_iff_getElem?.2 hline, hcall⟩

/-- The calls stand on lines of their own, from the first line to the last. -/
theorem pairwise_assertCalls (source : String) :
    (assertCalls source).Pairwise fun a b => a.range.start.line < b.range.start.line := by
  rw [assertCalls, assertCallsFrom_eq_filterMap, List.pairwise_filterMap]
  have hnumbers : ((lines source.toList).zipIdx 0).Pairwise fun a b => a.2 < b.2 := by
    rw [← List.pairwise_map (f := Prod.snd) (R := fun i j => i < j), List.zipIdx_map_snd]
    exact List.pairwise_lt_range'
  refine hnumbers.imp fun hlt call hcall call' hcall' => ?_
  rw [line_of_callOn hcall, line_of_callOn hcall']
  exact Int.ofNat_lt.2 hlt

/-- A line has a call if it has an assertion. -/
theorem exists_call_iff {source : String} {i : Nat} (hline : (lines source.toList)[i]? = some line) :
    (∃ call ∈ assertCalls source, call.range.start.line = i) ↔
      ∃ before after, ∃ a : Assertion, line = before ++ (a.text ++ after) := by
  constructor
  · rintro ⟨call, hcall, hi⟩
    obtain ⟨k, line', hline', hread⟩ := mem_assertCalls_iff.1 hcall
    obtain rfl : k = i := Int.ofNat.inj ((line_of_callOn hread).symm.trans hi)
    obtain rfl : line' = line := Option.some.inj (hline'.symm.trans hline)
    obtain ⟨found, hfound, -⟩ := Option.map_eq_some_iff.1 hread
    obtain ⟨before, a, after, hfirst, -⟩ := assertion?_eq_some_iff.1 hfound
    exact ⟨before, after, a, hfirst.split⟩
  · rintro ⟨before, after, a, hsplit⟩
    obtain ⟨before, a, after, hfirst⟩ := exists_firstAssertion hsplit
    have hread : callOn i line = some ⟨.onLine i before.length (before.length + a.text.length), String.ofList a.text⟩ := by
      rw [callOn, assertion?_eq_some_iff.2 ⟨before, a, after, hfirst, rfl⟩]
      rfl
    exact ⟨_, mem_assertCalls_iff.2 ⟨i, line, hline, hread⟩, rfl⟩

/-- A text has one call for each line with an assertion, in line order. It starts at the first place of the line where
an assertion starts, at a name that is the whole run behind the keyword, and ends behind the last parenthesis of the
line; its text is what the line has there. -/
theorem assertCalls_exact (source : String) :
    (assertCalls source).Pairwise (fun a b => a.range.start.line < b.range.start.line) ∧
    (∀ (i : Nat) line, (lines source.toList)[i]? = some line →
      ((∃ call ∈ assertCalls source, call.range.start.line = i) ↔
        ∃ before after, ∃ a : Assertion, line = before ++ (a.text ++ after))) ∧
    ∀ call ∈ assertCalls source, ∃ (i : Nat) (line before : List Char) (a : Assertion) (after : List Char),
      (lines source.toList)[i]? = some line ∧ FirstAssertion line before a after ∧
      (line.drop (before ++ a.keyword).length).takeWhile inAssertName = a.name ∧
      call = ⟨.onLine i before.length (before ++ a.text).length,
        String.ofList ((line.take (before ++ a.text).length).drop before.length)⟩ := by
  refine ⟨pairwise_assertCalls source, fun i line hline => exists_call_iff hline, fun call hcall => ?_⟩
  obtain ⟨i, line, hline, hread⟩ := mem_assertCalls_iff.1 hcall
  obtain ⟨found, hfound, rfl⟩ := Option.map_eq_some_iff.1 hread
  obtain ⟨before, a, after, hfirst, rfl⟩ := assertion?_eq_some_iff.1 hfound
  refine ⟨i, line, before, a, after, hline, hfirst, ?_, ?_⟩
  · rw [hfirst.split, a.text_append, ← List.append_assoc, List.drop_left, a.takeWhile_name]
  · rw [hfirst.split, ← List.append_assoc, List.take_left, List.drop_left, List.length_append]
    rfl

/-- Neither a name cut off by the end of the line nor the parenthesis of a comment keeps a call from being found. -/
example : assertCalls "OpenEdge.Core.Assert:x openedge.core.assert:Equals (a, f(b)). /* (c) */" =
    [⟨.onLine 0 23 68, "openedge.core.assert:Equals (a, f(b)). /* (c)"⟩] := by
  decide

end Grammar

end TestDiscovery
