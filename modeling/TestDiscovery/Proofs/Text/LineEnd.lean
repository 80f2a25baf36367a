-- SUMMARY: Blanks at the ends of lines, and carriage returns before line breaks as a case of them.
import Mathlib.Data.List.Forall2
import Mathlib.Data.List.Infix
import TestDiscovery.Proofs.Text.Blank
import TestDiscovery.Text.Lines
import TestDiscovery.Text.Newline

/-!
# Ends of lines

The line break alone ends a line, so a carriage return right before it is a blank at the end of the line. Reading a file
takes away these carriage returns and leaves the lines as they are otherwise.
-/

namespace TestDiscovery.Text

/-! ## Blanks at the ends of lines -/

/-- The second line is the first one with blanks after it. -/
def BlanksAfter (line line' : List Char) : Prop := ∃ ws, AllBlank ws ∧ line' = line ++ ws

theorem blanksAfter_iff {line line' : List Char} :
    BlanksAfter line line' ↔ line <+: line' ∧ AllBlank (line'.drop line.length) := by
  constructor
  · rintro ⟨ws, hws, rfl⟩
    exact ⟨List.prefix_append line ws, by rwa [List.drop_left]⟩
  · rintro ⟨⟨ws, rfl⟩, hws⟩
    rw [List.drop_left] at hws
    exact ⟨ws, hws, rfl⟩

instance (line line' : List Char) : Decidable (BlanksAfter line line') := decidable_of_iff _ blanksAfter_iff.symm

/-- The second text has the lines of the first one, with blanks after any of them. -/
def BlanksAtLineEnds (text text' : List Char) : Prop := List.Forall₂ BlanksAfter (lines text) (lines text')

instance (text text' : List Char) : Decidable (BlanksAtLineEnds text text') :=
  inferInstanceAs (Decidable (List.Forall₂ BlanksAfter (lines text) (lines text')))

variable {s s' : List Char} {c : Char}

theorem lines_break (s : List Char) : lines ('\n' :: s) = [] :: lines s := by simp [lines, splitOn]

theorem lines_cons (hc : c ≠ '\n') : ∃ first rest, lines s = first :: rest ∧ lines (c :: s) = (c :: first) :: rest := by
  unfold lines
  cases hlines : splitOn '\n' s with
  | nil => exact absurd hlines (splitOn_ne_nil '\n' s)
  | cons first rest => exact ⟨first, rest, rfl, by simp [splitOn, hc, hlines]⟩

theorem BlanksAfter.refl (line : List Char) : BlanksAfter line line := ⟨[], by simp [AllBlank], by simp⟩

theorem BlanksAfter.cons {line line' : List Char} (h : BlanksAfter line line') (c : Char) :
    BlanksAfter (c :: line) (c :: line') := by
  obtain ⟨ws, hws, rfl⟩ := h
  exact ⟨ws, hws, rfl⟩

theorem BlanksAtLineEnds.refl (s : List Char) : BlanksAtLineEnds s s := List.forall₂_same.2 fun line _ => .refl line

/-- The same character in front of both texts changes nothing after it. -/
theorem BlanksAtLineEnds.cons (h : BlanksAtLineEnds s s') (c : Char) : BlanksAtLineEnds (c :: s) (c :: s') := by
  unfold BlanksAtLineEnds at *
  by_cases hc : c = '\n'
  · subst hc
    rw [lines_break, lines_break]
    exact .cons (.refl []) h
  · obtain ⟨first, rest, hs, hcons⟩ := lines_cons (s := s) hc
    obtain ⟨first', rest', hs', hcons'⟩ := lines_cons (s := s') hc
    rw [hs, hs', List.forall₂_cons] at h
    rw [hcons, hcons']
    exact .cons (h.1.cons c) h.2

/-! ## Carriage returns -/

/-- Carriage returns stand right before line breaks only. -/
def ReturnsBeforeBreaks (text : List Char) : Prop := ∀ after, '\r' :: after <:+ text → after.head? = some '\n'

theorem returnsBeforeBreaks_iff {text : List Char} :
    ReturnsBeforeBreaks text ↔ ∀ rest ∈ text.tails, rest.head? = some '\r' → rest.tail.head? = some '\n' := by
  simp only [List.mem_tails]
  constructor
  · intro h rest hrest hreturn
    obtain ⟨after, rfl⟩ := List.head?_eq_some_iff.1 hreturn
    exact h after hrest
  · exact fun h after hafter => h _ hafter rfl

instance (text : List Char) : Decidable (ReturnsBeforeBreaks text) :=
  decidable_of_iff _ returnsBeforeBreaks_iff.symm

theorem ReturnsBeforeBreaks.tail (h : ReturnsBeforeBreaks (c :: s)) : ReturnsBeforeBreaks s :=
  fun after hafter => h after (hafter.trans (List.suffix_cons c s))

/-- A character that is not followed by the line break it would need is no carriage return. -/
theorem ReturnsBeforeBreaks.head_ne (h : ReturnsBeforeBreaks (c :: s))
    (hbreak : ∀ r, c = '\r' → s = '\n' :: r → False) : c ≠ '\r' := by
  rintro rfl
  obtain ⟨r, hr⟩ := List.head?_eq_some_iff.1 (h s (List.suffix_refl _))
  exact hbreak r rfl hr

/-- A text is what is read from it with blanks at the ends of lines. -/
theorem blanksAtLineEnds_unifyNewlines (h : ReturnsBeforeBreaks s) : BlanksAtLineEnds (unifyNewlines s) s := by
  fun_induction unifyNewlines s with
  | case1 => exact .refl []
  | case2 r ih =>
    obtain ⟨first, rest, hbreak, hreturn⟩ := lines_cons (c := '\r') (s := '\n' :: r) (by decide)
    rw [lines_break, List.cons.injEq] at hbreak
    obtain ⟨rfl, rfl⟩ := hbreak
    unfold BlanksAtLineEnds
    rw [hreturn, lines_break]
    exact .cons ⟨['\r'], by decide, rfl⟩ (ih h.tail.tail)
  | case3 c r hbreak ih =>
    rw [if_neg (h.head_ne hbreak)]
    exact (ih h.tail).cons c

/-- Only carriage returns are lost in reading. -/
theorem unifyNewlines_eq_filter (h : ReturnsBeforeBreaks s) : unifyNewlines s = s.filter (· != '\r') := by
  fun_induction unifyNewlines s with
  | case1 => rfl
  | case2 r ih =>
    rw [ih h.tail.tail]
    rfl
  | case3 c r hbreak ih =>
    have hc : c ≠ '\r' := h.head_ne hbreak
    rw [if_neg hc, ih h.tail, List.filter_cons_of_pos (by simpa using hc)]

end TestDiscovery.Text
