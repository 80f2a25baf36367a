-- SUMMARY: Cutting a text at a separator, into lines and into list items.
/-!
# Lines

A text is cut at every occurrence of one separator character. The line break alone separates lines: a
carriage return belongs to the line that it ends. There is always one piece more than there are separators,
so an empty text is one empty line, and joining the pieces gives the text back.
-/

namespace TestDiscovery.Text

/-- The pieces of a text between the occurrences of `sep`. -/
def splitOn (sep : Char) : List Char → List (List Char)
  | [] => [[]]
  | c :: r =>
    if c = sep then [] :: splitOn sep r
    else match splitOn sep r with
      | [] => [[c]]
      | piece :: pieces => (c :: piece) :: pieces

/-- The lines of a text. -/
def lines (s : List Char) : List (List Char) := splitOn '\n' s

/-- The pieces with `sep` between them. -/
def joinWith (sep : Char) : List (List Char) → List Char
  | [] => []
  | [piece] => piece
  | piece :: next :: pieces => piece ++ sep :: joinWith sep (next :: pieces)

theorem splitOn_ne_nil (sep : Char) (s : List Char) : splitOn sep s ≠ [] := by
  cases s with
  | nil => simp [splitOn]
  | cons c r =>
    simp only [splitOn]
    split
    · simp
    · split <;> simp

/-- Nothing is lost in cutting. -/
theorem joinWith_splitOn (sep : Char) (s : List Char) : joinWith sep (splitOn sep s) = s := by
  induction s with
  | nil => rfl
  | cons c r ih =>
    cases h : splitOn sep r with
    | nil => exact absurd h (splitOn_ne_nil sep r)
    | cons piece pieces =>
      rw [h] at ih
      simp only [splitOn, h]
      split
      · next hc => subst hc; rw [joinWith, ih]; rfl
      · cases pieces <;> simp_all [joinWith]

/-- No piece holds the separator. -/
theorem not_mem_of_mem_splitOn {sep : Char} {s piece : List Char} (h : piece ∈ splitOn sep s) :
    sep ∉ piece := by
  induction s generalizing piece with
  | nil => simp_all [splitOn]
  | cons c r ih =>
    simp only [splitOn] at h
    split at h
    · rcases List.mem_cons.1 h with rfl | h
      · simp
      · exact ih h
    · next hc =>
      split at h
      · next hr => exact absurd hr (splitOn_ne_nil sep r)
      · next p ps hr =>
        rcases List.mem_cons.1 h with rfl | h
        · have hp : p ∈ splitOn sep r := by simp [hr]
          simp [ih hp, Ne.symm hc]
        · exact ih (by simp [hr, h])

end TestDiscovery.Text
