-- SUMMARY: Joining pieces and cutting them apart again.
import Mathlib.Data.List.TakeWhile
import TestDiscovery.Text.Lines

/-!
# Pieces

A text that is joined from pieces is cut into the same pieces, if none of them holds the separator. So lines and list
items are found again as they were written.
-/

namespace TestDiscovery.Text

/-- A text is cut in one way at the first occurrence of a character. -/
theorem cut_unique {c : Char} {s r t u : List Char} (hs : c ∉ s) (hr : c ∉ r) (h : s ++ c :: t = r ++ c :: u) :
    s = r ∧ t = u := by
  induction s generalizing r with
  | nil =>
    cases r with
    | nil => exact ⟨rfl, (List.cons.inj h).2⟩
    | cons d r => exact absurd (List.mem_cons.2 (.inl (List.cons.inj h).1)) hr
  | cons d s ih =>
    cases r with
    | nil => exact absurd (List.mem_cons.2 (.inl (List.cons.inj h).1.symm)) hs
    | cons e r =>
      obtain ⟨rfl, hrest⟩ := List.cons.inj h
      simp only [List.mem_cons, not_or] at hs hr
      obtain ⟨rfl, rfl⟩ := ih hs.2 hr.2 hrest
      exact ⟨rfl, rfl⟩

/-- A cut at a character that the front of the text does not hold is behind this front. -/
theorem cut_behind {c : Char} {s t before after : List Char} (hs : c ∉ s) (h : s ++ t = before ++ c :: after) :
    ∃ m, before = s ++ m ∧ t = m ++ c :: after := by
  rcases List.append_eq_append_iff.1 h with ⟨m, hbefore, ht⟩ | ⟨m, hm, hafter⟩
  · exact ⟨m, hbefore, ht⟩
  · cases m with
    | nil => exact ⟨[], by simpa using hm.symm, hafter.symm⟩
    | cons d m =>
      obtain ⟨rfl, -⟩ := List.cons.inj hafter
      exact absurd (hm ▸ by simp) hs

/-- A text without the separator is one piece as a whole. -/
theorem takeWhile_of_not_mem {sep : Char} {s : List Char} (h : sep ∉ s) : s.takeWhile (· != sep) = s := by
  refine List.takeWhile_eq_self_iff.2 fun c hc => ?_
  rw [bne_iff_ne]
  rintro rfl
  exact h hc

theorem splitOn_of_not_mem {sep : Char} {s : List Char} (h : sep ∉ s) : splitOn sep s = [s] := by
  induction s with
  | nil => rfl
  | cons c s ih =>
    simp only [List.mem_cons, not_or] at h
    simp [splitOn, Ne.symm h.1, ih h.2]

theorem splitOn_append_cons {sep : Char} {piece rest : List Char} (h : sep ∉ piece) :
    splitOn sep (piece ++ sep :: rest) = piece :: splitOn sep rest := by
  induction piece with
  | nil => simp [splitOn]
  | cons c piece ih =>
    simp only [List.mem_cons, not_or] at h
    simp [splitOn, Ne.symm h.1, ih h.2]

/-- There is one piece more than there are separators. -/
theorem length_splitOn (sep : Char) (s : List Char) : (splitOn sep s).length = s.count sep + 1 := by
  induction s with
  | nil => rfl
  | cons c s ih =>
    rw [splitOn, List.count_cons]
    split
    · next heq => rw [List.length_cons, ih, heq, beq_self_eq_true, if_pos rfl]
    · next hne =>
      rw [if_neg (by simpa using hne), Nat.add_zero, ← ih]
      split
      · next hnil => exact absurd hnil (splitOn_ne_nil sep s)
      · next piece pieces hcons => rw [hcons, List.length_cons, List.length_cons]

/-- Pieces without the separator are found again in what they are joined to. -/
theorem splitOn_joinWith {sep : Char} {pieces : List (List Char)} (hne : pieces ≠ [])
    (h : ∀ piece ∈ pieces, sep ∉ piece) : splitOn sep (joinWith sep pieces) = pieces := by
  induction pieces with
  | nil => exact absurd rfl hne
  | cons piece pieces ih =>
    have hpiece := h piece List.mem_cons_self
    cases pieces with
    | nil => exact splitOn_of_not_mem hpiece
    | cons next pieces =>
      rw [joinWith, splitOn_append_cons hpiece, ih (by simp) fun p hp => h p (List.mem_cons_of_mem _ hp)]

theorem length_joinWith_cons (sep : Char) (piece : List Char) {pieces : List (List Char)} (h : pieces ≠ []) :
    (joinWith sep (piece :: pieces)).length = piece.length + 1 + (joinWith sep pieces).length := by
  cases pieces with
  | nil => exact absurd rfl h
  | cons next pieces =>
    simp only [joinWith, List.length_append, List.length_cons]
    omega

/-- What is in joined pieces is the separator or in one of them. -/
theorem not_mem_joinWith {sep c : Char} {pieces : List (List Char)} (hsep : c ≠ sep) (h : ∀ piece ∈ pieces, c ∉ piece) :
    c ∉ joinWith sep pieces := by
  induction pieces with
  | nil => exact List.not_mem_nil
  | cons piece pieces ih =>
    have hpiece := h piece List.mem_cons_self
    cases pieces with
    | nil => exact hpiece
    | cons next pieces =>
      rw [joinWith, List.mem_append, List.mem_cons, not_or, not_or]
      exact ⟨hpiece, hsep, ih fun p hp => h p (List.mem_cons_of_mem _ hp)⟩

/-- Joined pieces end with the last of them, at the start or after a separator. -/
theorem joinWith_concat (sep : Char) (pieces : List (List Char)) (last : List Char) :
    joinWith sep (pieces ++ [last]) = last ∨ ∃ before, joinWith sep (pieces ++ [last]) = before ++ sep :: last := by
  induction pieces with
  | nil => exact .inl rfl
  | cons piece pieces ih =>
    refine .inr ?_
    have hcons : joinWith sep (piece :: pieces ++ [last]) = piece ++ sep :: joinWith sep (pieces ++ [last]) := by
      cases pieces <;> rfl
    rw [hcons]
    rcases ih with h | ⟨before, h⟩
    · exact ⟨piece, by rw [h]⟩
    · exact ⟨piece ++ sep :: before, by rw [h]; simp⟩

end TestDiscovery.Text
