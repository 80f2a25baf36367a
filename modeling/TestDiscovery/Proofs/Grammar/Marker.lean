-- SUMMARY: A text carries a marker if one of its lines does, and blanks at the end of a line make no difference.
import TestDiscovery.Grammar.Marker
import TestDiscovery.Proofs.Text.Lower
import TestDiscovery.Proofs.Text.Occurrence

/-!
# Markers and lines

No marker has a sigma, so a marker is found in the lower case of the characters one by one; and since it has no line
break either, a text carries it exactly if a single line does.
-/

namespace TestDiscovery

namespace Grammar

/-! ## Markers -/

variable {m : Marker}

theorem Marker.text_ne_nil (m : Marker) : m.text ≠ [] := by cases m <;> decide

/-- A marker has no blanks, so that it has no line breaks either. -/
theorem Marker.not_mem_text_of_isBlank {c : Char} (h : Text.isBlank c = true) : c ∉ m.text := by
  intro hc
  have hall : Text.NoBlank m.text := by cases m <;> decide
  exact absurd h (by simp [hall c hc])

theorem Marker.occursIn_iff {s : List Char} : m.occursIn s = true ↔ m.text <:+: s.flatMap Text.Lower.plain := by
  unfold Marker.occursIn
  rw [Text.occurs_iff]
  cases m <;> exact Text.Lower.infix_toLower_iff (by decide) (by decide)

/-- A text carries a marker if one of its lines does. -/
theorem Marker.occursIn_iff_exists_line {text : List Char} :
    m.occursIn text = true ↔ ∃ line ∈ Text.lines text, m.occursIn line = true := by
  have hbreak : Text.isBlank '\n' = true := by decide
  have hlower : text.flatMap Text.Lower.plain =
      Text.joinWith '\n' ((Text.lines text).map (·.flatMap Text.Lower.plain)) := by
    rw [← Text.Lower.flatMap_plain_joinWith (Text.Lower.plain_of_isBlank hbreak), Text.lines, Text.joinWith_splitOn]
  rw [Marker.occursIn_iff, hlower,
    Text.infix_joinWith_iff m.text_ne_nil (Marker.not_mem_text_of_isBlank hbreak)]
  constructor
  · rintro ⟨_, hpiece, h⟩
    obtain ⟨line, hline, rfl⟩ := List.mem_map.1 hpiece
    exact ⟨line, hline, Marker.occursIn_iff.2 h⟩
  · rintro ⟨line, hline, h⟩
    exact ⟨_, List.mem_map_of_mem hline, Marker.occursIn_iff.1 h⟩

/-- A text without at signs carries no marker. -/
theorem Marker.occursIn_of_no_at {s : List Char} (h : '@' ∉ s) : m.occursIn s = false := by
  rw [Bool.eq_false_iff, Ne, Marker.occursIn_iff]
  intro hstretch
  have hat : '@' ∈ m.text := by cases m <;> decide
  obtain ⟨c, hc, hmem⟩ := List.mem_flatMap.1 (hstretch.subset hat)
  exact h (Text.Lower.eq_of_mem_plain (by decide) (by decide) hmem ▸ hc)

/-- Blanks after a line neither make nor break a marker. -/
theorem Marker.occursIn_append {line ws : List Char} (h : Text.AllBlank ws) :
    m.occursIn (line ++ ws) = m.occursIn line := by
  rw [Bool.eq_iff_iff, Marker.occursIn_iff, Marker.occursIn_iff, List.flatMap_append,
    Text.Lower.flatMap_plain_of_allBlank h]
  exact Text.infix_append_iff_of_disjoint fun c hc => Marker.not_mem_text_of_isBlank (h c hc)

/-! ## Comment lines -/

/-- A comment starts with a slash. -/
theorem isCommentLine_eq_false {line : List Char} (h : (Text.trimLeft line).head? ≠ some '/') :
    isCommentLine line = false := by
  rw [Bool.eq_false_iff]
  intro hcomment
  obtain ⟨rest, hrest⟩ := (List.isPrefixOf_iff_prefix.1 hcomment).trans (Text.trimRight_prefix (Text.trimLeft line))
  rw [← hrest] at h
  exact h rfl

end Grammar

end TestDiscovery
