-- SUMMARY: Occurrences of one text in another: where the first one stands, and in which piece of a joined text it lies.
import TestDiscovery.Proofs.Text.Pieces
import TestDiscovery.Text.Search

/-!
# Occurrences

A text occurs in another one if it is a stretch of it. The search answers the least column from which the stretch is
spelled. A text without the separator occurs in joined pieces only within one of them.
-/

namespace TestDiscovery.Text

variable {needle s : List Char}

/-! ## The first occurrence -/

theorem indexOf?_eq_none_iff : indexOf? needle s = none ↔ ¬ needle <:+: s := by
  induction s with
  | nil => cases needle <;> simp [indexOf?]
  | cons c r ih =>
    unfold indexOf?
    by_cases hhere : needle.isPrefixOf (c :: r) = true
    · have hinfix : needle <:+: c :: r := (List.isPrefixOf_iff_prefix.1 hhere).isInfix
      simp [hhere, hinfix]
    · have hprefix : ¬ needle <+: c :: r := fun h => hhere (List.isPrefixOf_iff_prefix.2 h)
      simp [hhere, ih, List.infix_cons_iff, hprefix]

/-- The answer is a column from which the text is spelled, and the least such. -/
theorem indexOf?_eq_some {n : Nat} (h : indexOf? needle s = some n) :
    n + needle.length ≤ s.length ∧ needle <+: s.drop n ∧ ∀ m < n, ¬ needle <+: s.drop m := by
  induction s generalizing n with
  | nil =>
    cases needle with
    | nil =>
      obtain rfl : 0 = n := Option.some.inj h
      simp
    | cons => simp [indexOf?] at h
  | cons c r ih =>
    unfold indexOf? at h
    split at h
    · next hhere =>
      obtain rfl : 0 = n := Option.some.inj h
      have hprefix := List.isPrefixOf_iff_prefix.1 hhere
      exact ⟨by simpa using hprefix.length_le, hprefix, by simp⟩
    · next hhere =>
      obtain ⟨k, hk, rfl⟩ := Option.map_eq_some_iff.1 h
      obtain ⟨hbound, hspelled, hfirst⟩ := ih hk
      refine ⟨?_, hspelled, ?_⟩
      · rw [List.length_cons]
        omega
      · intro m hm
        cases m with
        | zero => exact fun hp => hhere (List.isPrefixOf_iff_prefix.2 hp)
        | succ m => exact hfirst m (Nat.lt_of_succ_lt_succ hm)

/-- What follows the text does not move the first occurrence in it. -/
theorem indexOf?_append_left (h : needle <:+: s) (t : List Char) :
    indexOf? needle (s ++ t) = indexOf? needle s := by
  induction s with
  | nil =>
    obtain rfl := List.eq_nil_of_infix_nil h
    cases t <;> rfl
  | cons c r ih =>
    have hprefix : needle.isPrefixOf (c :: r ++ t) = needle.isPrefixOf (c :: r) := by
      rw [Bool.eq_iff_iff, List.isPrefixOf_iff_prefix, List.isPrefixOf_iff_prefix]
      constructor
      · exact fun hp => List.prefix_of_prefix_length_le hp (List.prefix_append _ t) h.length_le
      · exact fun hp => hp.trans (List.prefix_append _ t)
    rw [List.cons_append, indexOf?, indexOf?, ← List.cons_append, hprefix]
    split
    · rfl
    · next hhere =>
      have hr : needle <:+: r :=
        (List.infix_cons_iff.1 h).resolve_left fun hp => hhere (List.isPrefixOf_iff_prefix.2 hp)
      rw [ih hr]

theorem indexOf?_of_prefix (h : needle <+: s) : indexOf? needle s = some 0 := by
  cases s with
  | nil =>
    obtain rfl := List.prefix_nil.1 h
    rfl
  | cons c r => rw [indexOf?, if_pos (List.isPrefixOf_iff_prefix.2 h)]

theorem occurs_iff : occurs needle s = true ↔ needle <:+: s := by
  unfold occurs
  rw [Option.isSome_iff_ne_none, ne_eq, indexOf?_eq_none_iff, Decidable.not_not]

/-! ## Separators -/

/-- A text without the separator that starts before one ends before it. -/
theorem prefix_append_cons_iff {sep : Char} {a b : List Char} (h : sep ∉ needle) :
    needle <+: a ++ sep :: b ↔ needle <+: a := by
  constructor
  · rintro ⟨rest, hrest⟩
    obtain ⟨between, rfl, -⟩ := cut_behind h hrest
    exact List.prefix_append needle between
  · exact fun ha => ha.trans (List.prefix_append a _)

/-- A text right behind a separator is found there if it does not occur before. -/
theorem indexOf?_behind {sep : Char} {a b : List Char} (h : sep ∉ needle) (hbefore : ¬ needle <:+: a)
    (hhere : needle <+: b) : indexOf? needle (a ++ sep :: b) = some (a.length + 1) := by
  have hnot (a : List Char) (ha : ¬ needle <:+: a) : needle.isPrefixOf (a ++ sep :: b) = false := by
    rw [Bool.eq_false_iff, Ne, List.isPrefixOf_iff_prefix, prefix_append_cons_iff h]
    exact fun hprefix => ha hprefix.isInfix
  induction a with
  | nil =>
    have hsep : needle.isPrefixOf (sep :: b) = false := hnot [] hbefore
    rw [List.nil_append, indexOf?, hsep, indexOf?_of_prefix hhere]
    rfl
  | cons c a ih =>
    have hrest : ¬ needle <:+: a := fun ha => hbefore (ha.trans (List.suffix_cons c a).isInfix)
    have hc : needle.isPrefixOf (c :: (a ++ sep :: b)) = false := hnot (c :: a) hbefore
    rw [List.cons_append, indexOf?, hc, ih hrest]
    rfl

/-- A text without the separator lies on one side of it. -/
theorem infix_append_cons_iff {sep : Char} {a b : List Char} (h : sep ∉ needle) :
    needle <:+: a ++ sep :: b ↔ needle <:+: a ∨ needle <:+: b := by
  constructor
  · intro hinfix
    rcases List.infix_append_iff.1 hinfix with ha | hb | ⟨l₁, l₂, rfl, hl₁, hl₂⟩
    · exact .inl ha
    · rcases List.infix_cons_iff.1 hb with hp | hb
      · cases needle with
        | nil => exact .inl List.nil_infix
        | cons c r =>
          have hc : c = sep := (List.cons_prefix_cons.1 hp).1
          exact absurd List.mem_cons_self (hc ▸ h)
      · exact .inr hb
    · cases l₂ with
      | nil =>
        rw [List.append_nil]
        exact .inl hl₁.isInfix
      | cons c r =>
        have hc : c = sep := (List.cons_prefix_cons.1 hl₂).1
        exact absurd (List.mem_append_right l₁ List.mem_cons_self) (hc ▸ h)
  · rintro (ha | hb)
    · exact ha.trans (List.prefix_append a _).isInfix
    · exact hb.trans ((List.suffix_cons sep b).trans (List.suffix_append a _)).isInfix

/-- What holds none of the characters of a text adds no occurrence of it. -/
theorem infix_append_iff_of_disjoint {a b : List Char} (h : ∀ c ∈ b, c ∉ needle) :
    needle <:+: a ++ b ↔ needle <:+: a := by
  induction b generalizing a with
  | nil => simp
  | cons c b ih =>
    have hb : needle <:+: b → needle <:+: a := by
      intro hb
      cases needle with
      | nil => exact List.nil_infix
      | cons d r => exact absurd List.mem_cons_self (h d (List.mem_cons_of_mem c (hb.subset List.mem_cons_self)))
    rw [infix_append_cons_iff (h c List.mem_cons_self)]
    exact ⟨fun h => h.elim id hb, .inl⟩

/-- A text without the separator occurs in joined pieces if it occurs in one of them. -/
theorem infix_joinWith_iff {sep : Char} {pieces : List (List Char)} (hne : needle ≠ []) (h : sep ∉ needle) :
    needle <:+: joinWith sep pieces ↔ ∃ piece ∈ pieces, needle <:+: piece := by
  induction pieces with
  | nil => simp [joinWith, hne]
  | cons piece pieces ih =>
    cases pieces with
    | nil => simp [joinWith]
    | cons next pieces => 
      rw [joinWith, infix_append_cons_iff h, ih]
      simp

theorem infix_joinWith_of_mem {sep : Char} {piece : List Char} {pieces : List (List Char)} (h : piece ∈ pieces) :
    piece <:+: joinWith sep pieces := by
  induction pieces with
  | nil => cases h
  | cons first pieces ih =>
    cases pieces with
    | nil =>
      rw [List.mem_singleton.1 h]
      exact List.infix_rfl
    | cons next pieces =>
      rw [joinWith]
      rcases List.mem_cons.1 h with rfl | h
      · exact (List.prefix_append piece _).isInfix
      · have hrest : joinWith sep (next :: pieces) <:+ first ++ sep :: joinWith sep (next :: pieces) :=
          (List.suffix_cons sep _).trans (List.suffix_append first _)
        exact (ih h).trans hrest.isInfix

/-- Each piece of a text is a stretch of it. -/
theorem infix_of_mem_splitOn {sep : Char} {piece : List Char} (h : piece ∈ splitOn sep s) : piece <:+: s := by
  rw [← joinWith_splitOn sep s]
  exact infix_joinWith_of_mem h

end TestDiscovery.Text
