-- SUMMARY: The first occurrence of one text in another.
/-!
# Search

The column of a name on its line is found by searching the line for it, so the search is by position.
-/

namespace TestDiscovery.Text

/-- The number of characters before the first occurrence of `needle`. -/
def indexOf? (needle : List Char) : List Char → Option Nat
  | [] => if needle.isEmpty then some 0 else none
  | c :: r => if needle.isPrefixOf (c :: r) then some 0 else (indexOf? needle r).map (· + 1)

/-- Whether `needle` occurs in the text. -/
def occurs (needle s : List Char) : Bool := (indexOf? needle s).isSome

/-- The text up to the last occurrence of `c`, and what follows that occurrence. -/
def splitLast? (c : Char) : List Char → Option (List Char × List Char)
  | [] => none
  | d :: r =>
    match splitLast? c r with
    | some (before, after) => some (d :: before, after)
    | none => if d = c then some ([], r) else none

theorem splitLast?_eq_none_iff {c : Char} {s : List Char} : splitLast? c s = none ↔ c ∉ s := by
  induction s with
  | nil => simp [splitLast?]
  | cons d r ih =>
    unfold splitLast?
    cases hr : splitLast? c r with
    | some parts =>
      have hmem : c ∈ r := Decidable.byContradiction fun hc => absurd (hr.symm.trans (ih.2 hc)) (by simp)
      simp [hmem]
    | none =>
      have hmem : c ∉ r := ih.1 hr
      by_cases hd : d = c
      · simp [hd]
      · simp [hd, Ne.symm hd, hmem]

/-- Nothing is lost in the cut, and the last part has no further occurrence. -/
theorem append_of_splitLast? {c : Char} {s before after : List Char}
    (h : splitLast? c s = some (before, after)) : s = before ++ c :: after ∧ c ∉ after := by
  induction s generalizing before after with
  | nil => simp [splitLast?] at h
  | cons d r ih =>
    simp only [splitLast?] at h
    split at h
    · next b a hr =>
      obtain ⟨rfl, ha⟩ := ih hr
      simp only [Option.some.injEq, Prod.mk.injEq] at h
      obtain ⟨rfl, rfl⟩ := h
      exact ⟨rfl, ha⟩
    · next hr =>
      split at h
      · next hd =>
        simp only [Option.some.injEq, Prod.mk.injEq] at h
        obtain ⟨rfl, rfl⟩ := h
        subst hd
        exact ⟨rfl, splitLast?_eq_none_iff.1 hr⟩
      · simp at h

end TestDiscovery.Text
