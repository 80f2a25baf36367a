-- SUMMARY: Searching a text from the left: what is found, where, and not before.
import Mathlib.Order.WellFounded
import TestDiscovery.Proofs.Text.Blank

/-!
# Leftmost places

Lines are searched from the left. Something is looked for at each place, and the first place where it is found decides.
What stands before a place counts through a state that each character changes. So what is found is found at one place,
and nothing is found at the places before it.
-/

namespace TestDiscovery.Text

variable {σ α : Type} {look : σ → List Char → Option α} {next : σ → Char → σ} {state : σ} {s ws : List Char} {found : α}

/-- What is found at the leftmost place of a text where there is something: `look` looks at one place in a state, and
`next` is the state one character later. -/
def leftmost (look : σ → List Char → Option α) (next : σ → Char → σ) (state : σ) : List Char → Option α
  | [] => none
  | c :: r => (look state (c :: r)).or (leftmost look next (next state c) r)

/-- The leftmost place is where `rest` starts, and `found` is found there. -/
structure LeftmostAt (look : σ → List Char → Option α) (next : σ → Char → σ) (state : σ) (s before rest : List Char)
    (found : α) : Prop where
  split : s = before ++ rest
  inside : rest ≠ []
  here : look (before.foldl next state) rest = some found
  first : ∀ before' rest', s = before' ++ rest' → before'.length < before.length →
    look (before'.foldl next state) rest' = none

theorem LeftmostAt.cons {c : Char} {before rest : List Char} (hnone : look state (c :: s) = none)
    (h : LeftmostAt look next (next state c) s before rest found) :
    LeftmostAt look next state (c :: s) (c :: before) rest found := by
  refine ⟨by rw [h.split, List.cons_append], h.inside, h.here, ?_⟩
  intro before' rest' hsplit hshort
  cases before' with
  | nil =>
    obtain rfl : c :: s = rest' := hsplit
    exact hnone
  | cons d before' =>
    obtain ⟨rfl, hrest⟩ := List.cons.inj hsplit
    exact h.first before' rest' hrest (Nat.lt_of_succ_lt_succ hshort)

/-- Nothing is found before the leftmost place. -/
theorem LeftmostAt.le {before rest before' rest' : List Char} {other : α}
    (h : LeftmostAt look next state s before rest found) (hsplit : s = before' ++ rest')
    (hother : look (before'.foldl next state) rest' = some other) : before.length ≤ before'.length := by
  refine Nat.le_of_not_lt fun hlt => ?_
  have hnone : look (before'.foldl next state) rest' = none := h.first before' rest' hsplit hlt
  rw [hother] at hnone
  cases hnone

/-- A place where something is found is the leftmost one if no other such place stands before it. -/
theorem LeftmostAt.of_le {before rest : List Char} (hsplit : s = before ++ rest) (hinside : rest ≠ [])
    (hhere : look (before.foldl next state) rest = some found)
    (hle : ∀ before' rest' other, s = before' ++ rest' → look (before'.foldl next state) rest' = some other →
      before.length ≤ before'.length) : LeftmostAt look next state s before rest found := by
  refine ⟨hsplit, hinside, hhere, fun before' rest' hsplit' hshort => ?_⟩
  rw [Option.eq_none_iff_forall_ne_some]
  intro other hother
  exact absurd (hle before' rest' other hsplit' hother) (Nat.not_le_of_lt hshort)

/-- What is found is found at the leftmost place. -/
theorem exists_leftmostAt (h : leftmost look next state s = some found) :
    ∃ before rest, LeftmostAt look next state s before rest found := by
  induction s generalizing state with
  | nil => cases h
  | cons c r ih =>
    rcases Option.or_eq_some_iff.1 h with hhere | ⟨hnone, hlater⟩
    · exact ⟨[], c :: r, rfl, List.cons_ne_nil c r, hhere, by simp⟩
    · obtain ⟨before, rest, hrest⟩ := ih hlater
      exact ⟨c :: before, rest, hrest.cons hnone⟩

/-- The search comes to the leftmost place, since it finds nothing on the way. -/
theorem LeftmostAt.leftmost_eq {before rest : List Char} (h : LeftmostAt look next state s before rest found) :
    leftmost look next state s = some found := by
  induction before generalizing state s with
  | nil =>
    cases rest with
    | nil => exact absurd rfl h.inside
    | cons c r =>
      obtain rfl : s = c :: r := h.split
      have hhere : look state (c :: r) = some found := h.here
      rw [leftmost, hhere, Option.some_or]
  | cons c before ih =>
    obtain rfl : s = c :: (before ++ rest) := h.split
    have hnone : look state (c :: (before ++ rest)) = none := h.first [] _ rfl (Nat.zero_lt_succ _)
    have hlater : LeftmostAt look next (next state c) (before ++ rest) before rest found :=
      ⟨rfl, h.inside, h.here, fun before' rest' hsplit hshort =>
        h.first (c :: before') rest' (congrArg (c :: ·) hsplit) (Nat.succ_lt_succ hshort)⟩
    rw [leftmost, hnone, Option.none_or, ih hlater]

theorem leftmost_eq_some_iff :
    leftmost look next state s = some found ↔ ∃ before rest, LeftmostAt look next state s before rest found :=
  ⟨exists_leftmostAt, fun ⟨_, _, h⟩ => h.leftmost_eq⟩

/-- If something is found at a place, the leftmost place where there is something is not behind it. -/
theorem exists_leftmostAt_of_look {before rest : List Char} (hrest : rest ≠ [])
    (h : look (before.foldl next state) rest = some found) :
    ∃ before' rest' found', LeftmostAt look next state (before ++ rest) before' rest' found' ∧
      before'.length ≤ before.length := by
  induction before generalizing state with
  | nil => exact ⟨[], rest, found, ⟨rfl, hrest, h, by simp⟩, Nat.le_refl 0⟩
  | cons c before ih =>
    cases hhere : look state (c :: (before ++ rest)) with
    | some here => exact ⟨[], _, here, ⟨rfl, List.cons_ne_nil _ _, hhere, by simp⟩, Nat.zero_le _⟩
    | none =>
      obtain ⟨before', rest', found', hleftmost, hlength⟩ := ih h
      exact ⟨c :: before', rest', found', hleftmost.cons hhere, Nat.succ_le_succ hlength⟩

/-- What is found in `s` is what stands there: `At before p` says that `p` stands behind `before`, and `result before p`
is what is found at such a place. -/
structure Finds {π : Type} (look : σ → List Char → Option α) (next : σ → Char → σ) (state : σ) (s : List Char)
    (At : List Char → π → Prop) (result : List Char → π → α) : Prop where
  look_iff : ∀ before rest found, s = before ++ rest →
    (look (before.foldl next state) rest = some found ↔ ∃ p, At before p ∧ result before p = found)
  inside : ∀ before p, At before p → ∃ rest, s = before ++ rest ∧ rest ≠ []

namespace Finds

variable {π : Type} {At : List Char → π → Prop} {result : List Char → π → α} {before : List Char} {p : π}

/-- The search finds what stands at the first place. -/
theorem leftmost_eq_some_iff (h : Finds look next state s At result) : leftmost look next state s = some found ↔
    ∃ before p, At before p ∧ (∀ before' p', At before' p' → before.length ≤ before'.length) ∧ result before p = found := by
  rw [Text.leftmost_eq_some_iff]
  constructor
  · rintro ⟨before, rest, hleftmost⟩
    obtain ⟨p, hat, hfound⟩ := (h.look_iff before rest found hleftmost.split).1 hleftmost.here
    refine ⟨before, p, hat, fun before' p' hat' => ?_, hfound⟩
    obtain ⟨rest', hsplit', -⟩ := h.inside before' p' hat'
    exact hleftmost.le hsplit' ((h.look_iff before' rest' _ hsplit').2 ⟨p', hat', rfl⟩)
  · rintro ⟨before, p, hat, hfirst, hfound⟩
    obtain ⟨rest, hsplit, hrest⟩ := h.inside before p hat
    have hhere := (h.look_iff before rest found hsplit).2 ⟨p, hat, hfound⟩
    refine ⟨before, rest, .of_le hsplit hrest hhere fun before' rest' other hsplit' hother => ?_⟩
    obtain ⟨p', hat', -⟩ := (h.look_iff before' rest' other hsplit').1 hother
    exact hfirst before' p' hat'

/-- Where something stands, the search finds something. -/
theorem exists_leftmost (h : Finds look next state s At result) (hat : At before p) :
    ∃ found, leftmost look next state s = some found := by
  obtain ⟨rest, hsplit, hrest⟩ := h.inside before p hat
  have hhere := (h.look_iff before rest _ hsplit).2 ⟨p, hat, rfl⟩
  obtain ⟨_, _, found, hleftmost, -⟩ := exists_leftmostAt_of_look hrest hhere
  exact ⟨found, hsplit ▸ hleftmost.leftmost_eq⟩

end Finds

/-- If each place gives only what has a part spelled from there on, the text spells the part of what is found. -/
theorem infix_of_leftmost (part : α → List Char)
    (hlook : ∀ state rest found, look state rest = some found → part found <:+: rest)
    (h : leftmost look next state s = some found) : part found <:+: s := by
  obtain ⟨before, rest, hleftmost⟩ := leftmost_eq_some_iff.1 h
  have hrest : rest <:+ s := ⟨before, hleftmost.split.symm⟩
  exact (hlook _ rest found hleftmost.here).trans hrest.isInfix

/-- Where blanks after a text change nothing at any place, they change nothing in the search. -/
theorem leftmost_append (hnil : ∀ state, look state [] = none)
    (hlook : ∀ state s ws, AllBlank ws → look state (s ++ ws) = look state s) (h : AllBlank ws) :
    leftmost look next state (s ++ ws) = leftmost look next state s := by
  induction s generalizing state with
  | nil =>
    induction ws generalizing state with
    | nil => rfl
    | cons c ws ih =>
      have hnone : look state (c :: ws) = none := (hlook state [] (c :: ws) h).trans (hnil state)
      have hrest : leftmost look next (next state c) ws = none := ih fun d hd => h d (List.mem_cons_of_mem c hd)
      rw [List.nil_append, leftmost, leftmost, hnone, hrest]
      rfl
  | cons c r ih =>
    have hplace : look state (c :: r ++ ws) = look state (c :: r) := hlook state (c :: r) ws h
    rw [List.cons_append, leftmost, leftmost, ← List.cons_append, hplace, ih]

/-- Of the places where something holds there is a leftmost one. -/
theorem exists_shortest (P : List Char → Prop) {before : List Char} (h : P before) :
    ∃ before, P before ∧ ∀ before', P before' → before.length ≤ before'.length := by
  obtain ⟨shortest, hshortest, hleast⟩ := WellFounded.has_min (measure List.length).wf {before | P before} ⟨before, h⟩
  exact ⟨shortest, hshortest, fun before' h' => Nat.le_of_not_lt (hleast before' h')⟩

end TestDiscovery.Text
