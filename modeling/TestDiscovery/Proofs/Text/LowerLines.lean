-- SUMMARY: Lower case goes line by line: no letter has a line break in its context, and none becomes one.
import TestDiscovery.Proofs.Text.Lower
import TestDiscovery.Proofs.Text.Pieces

/-!
# Lower case, line by line

The form of a sigma hangs on the letters around it, past characters that do not count. A line break counts and is no
letter, so nothing beyond it does. Hence the lines of a text in lower case are its lines in lower case, although a
character may change its form or its length.
-/

namespace TestDiscovery.Text

/-! ## Context -/

/-- No cased letter is met beyond a line break. -/
theorem Lower.meetsCased_append_break (s r : List Char) : meetsCased (s ++ '\n' :: r) = meetsCased s := by
  have hcounts : ¬ inRanges ignorableRanges '\n'.toNat = true := by decide +kernel
  have huncased : inRanges casedRanges '\n'.toNat = false := by decide +kernel
  induction s with
  | nil =>
    unfold meetsCased
    rw [List.nil_append, List.dropWhile_cons, if_neg hcounts]
    exact huncased
  | cons c s ih =>
    unfold meetsCased at ih ⊢
    by_cases hc : inRanges ignorableRanges c.toNat = true
    · rw [List.cons_append, List.dropWhile_cons, List.dropWhile_cons, if_pos hc, if_pos hc]
      exact ih
    · rw [List.cons_append, List.dropWhile_cons, List.dropWhile_cons, if_neg hc, if_neg hc]

/-- What stands on earlier lines has no part in the lower case of a text. -/
theorem Lower.after_append_break (before earlier s : List Char) :
    after (before ++ '\n' :: earlier) s = after before s := by
  induction s generalizing before with
  | nil => rfl
  | cons c s ih =>
    have hsigma : sigma (before ++ '\n' :: earlier) s = sigma before s := by
      unfold sigma
      rw [meetsCased_append_break]
    rw [after, after, hsigma, ← List.cons_append, ih]

/-- What stands on later lines has none either. -/
theorem Lower.after_line (before line rest : List Char) :
    after before (line ++ '\n' :: rest) = after before line ++ '\n' :: after [] rest := by
  induction line generalizing before with
  | nil =>
    have hbreak : after before ('\n' :: rest) = '\n' :: after ([] ++ '\n' :: before) rest := rfl
    rw [List.nil_append, hbreak, after_append_break]
    rfl
  | cons c line ih =>
    have hsigma : sigma before (line ++ '\n' :: rest) = sigma before line := by
      unfold sigma
      rw [meetsCased_append_break]
    rw [List.cons_append, after, after, hsigma, ih, List.append_assoc]

/-! ## Lines -/

theorem toLower_joinWith_break (pieces : List (List Char)) :
    toLower (joinWith '\n' pieces) = joinWith '\n' (pieces.map toLower) := by
  induction pieces with
  | nil => rfl
  | cons piece pieces ih =>
    cases pieces with
    | nil => rfl
    | cons next pieces =>
      rw [joinWith, toLower, Lower.after_line]
      exact congrArg (fun rest => toLower piece ++ '\n' :: rest) ih

/-- Lower case makes no line breaks. -/
theorem break_not_mem_toLower {s : List Char} (h : '\n' ∉ s) : '\n' ∉ toLower s := by
  rw [← List.count_eq_zero, count_toLower (by decide) (by decide)]
  exact List.count_eq_zero.2 h

/-- The lines of a text in lower case are its lines in lower case. -/
theorem lines_toLower (s : List Char) : lines (toLower s) = (lines s).map toLower := by
  have hlines : toLower s = joinWith '\n' ((lines s).map toLower) := by
    rw [← toLower_joinWith_break, lines, joinWith_splitOn]
  have hne : (lines s).map toLower ≠ [] := by simp [lines, splitOn_ne_nil]
  rw [hlines]
  refine splitOn_joinWith hne fun piece hpiece => ?_
  obtain ⟨line, hline, rfl⟩ := List.mem_map.1 hpiece
  exact break_not_mem_toLower (not_mem_of_mem_splitOn hline)

/-- A sigma ends its word at the end of a line, whatever the next line starts with. -/
example : toLower "ΑΣ\nΑΣΑ".toList = "ας\nασα".toList := by decide +kernel

end TestDiscovery.Text
