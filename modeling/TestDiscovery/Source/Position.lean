-- SUMMARY: Positions and ranges in a source text, counted from zero, and the order of positions.
/-!
# Positions

A position is a line and a column, both counted from zero, columns in characters. Positions are ordered by
line and then by column. Line and column are integers, since a range may be reported that no text has.
-/

namespace TestDiscovery

structure Position where
  line : Int
  column : Int
deriving DecidableEq, Repr, Inhabited

namespace Position

instance : LT Position := ⟨fun a b => a.line < b.line ∨ a.line = b.line ∧ a.column < b.column⟩

instance : LE Position := ⟨fun a b => a.line < b.line ∨ a.line = b.line ∧ a.column ≤ b.column⟩

instance (a b : Position) : Decidable (a < b) :=
  inferInstanceAs (Decidable (a.line < b.line ∨ a.line = b.line ∧ a.column < b.column))

instance (a b : Position) : Decidable (a ≤ b) :=
  inferInstanceAs (Decidable (a.line < b.line ∨ a.line = b.line ∧ a.column ≤ b.column))

/-- Positions in ascending order. -/
def sort (ps : List Position) : List Position := ps.mergeSort fun a b => decide (a ≤ b)

end Position

/-- A span between two positions. -/
structure Range where
  start : Position
  stop : Position
deriving DecidableEq, Repr, Inhabited

/-- The span on one line between two columns. -/
def Range.onLine (line start stop : Int) : Range := ⟨⟨line, start⟩, ⟨line, stop⟩⟩

end TestDiscovery
