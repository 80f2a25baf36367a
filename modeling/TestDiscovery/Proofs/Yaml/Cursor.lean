-- SUMMARY: What is left of a text after a cursor has moved.
import TestDiscovery.Yaml.Cursor

/-!
# Moving a cursor

A cursor only moves on: what is left after a move is the end of what was left before.
-/

namespace TestDiscovery.Yaml.Cursor

variable (c : Cursor) (p : Char → Bool)

@[simp] theorem rest_next : c.next.rest = c.rest.tail := by
  unfold next
  split
  · next h => rw [h, List.tail_nil]
  · next h =>
    rw [h]
    split <;> rfl

@[simp] theorem rest_advance (n : Nat) : (c.advance n).rest = c.rest.drop n := by
  induction n generalizing c with
  | zero => rfl
  | succ n ih => rw [advance, ih, rest_next, List.drop_tail]

theorem rest_of_peek {c : Cursor} {ch : Char} (h : c.peek = some ch) : c.rest = ch :: c.next.rest := by
  obtain ⟨rest, hrest⟩ := List.head?_eq_some_iff.1 h
  rw [rest_next, hrest, List.tail_cons]

theorem next_suffix : c.next.rest <:+ c.rest := by
  rw [rest_next]
  exact List.tail_suffix _

theorem advance_suffix (n : Nat) : (c.advance n).rest <:+ c.rest := by
  rw [rest_advance]
  exact List.drop_suffix _ _

theorem span_suffix : (c.span p).2.rest <:+ c.rest := c.advance_suffix _

theorem skipWhile_suffix : (c.skipWhile p).rest <:+ c.rest := c.span_suffix p

theorem skipSpaces_suffix : c.skipSpaces.rest <:+ c.rest := c.skipWhile_suffix _

theorem skipLine_suffix : c.skipLine.rest <:+ c.rest := c.skipWhile_suffix _

theorem skipComment_suffix : c.skipComment.rest <:+ c.rest := by
  unfold skipComment
  split
  · exact c.skipLine_suffix
  · exact List.suffix_refl _

theorem lineBreak_suffix : c.lineBreak.2.rest <:+ c.rest := by
  unfold lineBreak
  split
  · split
    · exact c.next_suffix
    · split
      · exact c.next_suffix
      · exact List.suffix_refl _
  · exact List.suffix_refl _

/-- A line break holds nothing else. -/
theorem not_mem_lineBreak {d : Char} (hd : isBreak d = false) : d ∉ c.lineBreak.1 := by
  have hbreaks (b : Char) (hb : isBreak b = true) : b ≠ d := by
    rintro rfl
    rw [hb] at hd
    cases hd
  unfold lineBreak
  split
  · next ch _ =>
    split
    · simpa using Ne.symm (hbreaks '\n' (by decide))
    · split
      · next hbreak =>
        simp only [Bool.or_eq_true, beq_iff_eq] at hbreak
        rcases hbreak with rfl | rfl
        · simpa using Ne.symm (hbreaks '\u2028' (by decide))
        · simpa using Ne.symm (hbreaks '\u2029' (by decide))
      · exact List.not_mem_nil
  · exact List.not_mem_nil

end TestDiscovery.Yaml.Cursor
