-- SUMMARY: Reading annotations in any letter case finds what reading them in small letters does, or begins before it.
import Mathlib.Data.List.Infix
import TestDiscovery.Proofs.Grammar.Spelling
import TestDiscovery.Proofs.Text.Keyword
import TestDiscovery.Proofs.Text.Pieces

/-!
# Annotations in any letter case

One annotation of a line is read, the first one that is closed, up to the last parenthesis of the line. If any letter
case will do, the annotation in small letters may not be the first one any more. Then what is read begins further left
and ends with what was read before. Its attributes are the same, unless another one starts in what has come before them.
-/

namespace TestDiscovery.Grammar

open Text

variable {fits : Fits} {line s before inside : List Char}

/-! ## Parameters -/

/-- The parameters at the front of a line stand between the word and the last parenthesis. -/
theorem parametersAt?_eq_some_iff (hline : '\n' ∉ s) : parametersAt? fits s = some inside ↔
    ∃ w after, Spells fits annotationWord w ∧ s = w ++ (inside ++ ')' :: after) ∧ ')' ∉ after := by
  have hwhole (w inner : List Char) (hsplit : s = w ++ inner) : inner.takeWhile (· != '\n') = inner :=
    takeWhile_of_not_mem fun hmem => hline (hsplit ▸ List.mem_append_right w hmem)
  unfold parametersAt?
  constructor
  · intro h
    obtain ⟨⟨found, after⟩, hcut, rfl⟩ := Option.map_eq_some_iff.1 h
    obtain ⟨inner, hinner, hcut⟩ := Option.bind_eq_some_iff.1 hcut
    obtain ⟨w, hw, hsplit⟩ := afterKeyword?_eq_some_iff.1 hinner
    rw [hwhole w inner hsplit] at hcut
    obtain ⟨rfl, hafter⟩ := append_of_splitLast? hcut
    exact ⟨w, after, hw, hsplit, hafter⟩
  · rintro ⟨w, after, hw, hsplit, hafter⟩
    rw [afterKeyword?_eq_some_iff.2 ⟨w, hw, hsplit⟩, Option.bind_some, hwhole w _ hsplit, splitLast?_append_cons hafter]
    rfl

/-- An annotation that begins no later than one in small letters ends with the same parenthesis. What it holds more ends
where the word of the other one does. -/
theorem exists_before_of_parametersAt? {pre rest pre' rest' wide : List Char} (hline : '\n' ∉ line)
    (hsplit : line = pre ++ rest) (hsplit' : line = pre' ++ rest') (hle : pre'.length ≤ pre.length)
    (hexact : parametersAt? exactly rest = some inside) (hfits : parametersAt? fits rest' = some wide) :
    ∃ before, wide = before ++ inside ∧ before.getLast? ≠ some ',' := by
  have hrest : '\n' ∉ rest := fun hmem => hline (hsplit ▸ List.mem_append_right pre hmem)
  have hrest' : '\n' ∉ rest' := fun hmem => hline (hsplit' ▸ List.mem_append_right pre' hmem)
  obtain ⟨w, after, hw, rfl, hafter⟩ := (parametersAt?_eq_some_iff hrest).1 hexact
  obtain ⟨w', after', hw', rfl, hafter'⟩ := (parametersAt?_eq_some_iff hrest').1 hfits
  have hlength : (pre' ++ w').length ≤ (pre ++ w).length := by
    have hwords : w'.length = w.length := hw'.length_eq.symm.trans hw.length_eq
    rw [List.length_append, List.length_append]
    omega
  rw [← List.append_assoc] at hsplit hsplit'
  obtain ⟨before, hbefore⟩ := List.prefix_of_prefix_length_le ⟨_, hsplit'.symm⟩ ⟨_, hsplit.symm⟩ hlength
  have hinner : wide ++ ')' :: after' = (before ++ inside) ++ ')' :: after := by
    have hlines := hsplit'.symm.trans hsplit
    rwa [← hbefore, List.append_assoc _ before, List.append_cancel_left_eq, ← List.append_assoc] at hlines
  refine ⟨before, ?_, ?_⟩
  · have hcut : some (wide, after') = some (before ++ inside, after) := by
      rw [← splitLast?_append_cons hafter', hinner, splitLast?_append_cons hafter]
    exact congrArg Prod.fst (Option.some.inj hcut)
  · intro hcomma
    have hlast : (pre ++ w).getLast? = some ',' := by rw [← hbefore, List.getLast?_append, hcomma, Option.some_or]
    have hparenthesis : (pre ++ w).getLast? = some '(' := by
      rw [spells_exactly_iff.1 hw, List.getLast?_append]
      rfl
    rw [hparenthesis] at hlast
    exact absurd (Option.some.inj hlast) (by decide)

/-- An annotation in small letters is one in any letter case. -/
theorem parametersAt?_anyCase (hline : '\n' ∉ s) (h : parametersAt? exactly s = some inside) :
    parametersAt? anyCase s = some inside := by
  obtain ⟨w, after, hw, hsplit⟩ := (parametersAt?_eq_some_iff hline).1 h
  exact (parametersAt?_eq_some_iff hline).2 ⟨w, after, hw.anyCase_of_exactly, hsplit⟩

/-- The first annotation in any letter case is the one in small letters or begins before it. -/
theorem parameters?_anyCase (hline : '\n' ∉ line) (h : parameters? exactly line = some inside) :
    ∃ before, parameters? anyCase line = some (before ++ inside) ∧ before.getLast? ≠ some ',' := by
  rw [parameters?_eq_leftmost] at h
  obtain ⟨pre, rest, hexact⟩ := exists_leftmostAt h
  have hrest : '\n' ∉ rest := fun hmem => hline (hexact.split ▸ List.mem_append_right pre hmem)
  obtain ⟨pre', rest', wide, hany, hle⟩ : ∃ pre' rest' wide,
      LeftmostAt (fun _ => parametersAt? anyCase) (fun _ _ => ()) () (pre ++ rest) pre' rest' wide ∧
        pre'.length ≤ pre.length :=
    exists_leftmostAt_of_look hexact.inside (parametersAt?_anyCase hrest hexact.here)
  rw [← hexact.split] at hany
  obtain ⟨before, rfl, hlast⟩ := exists_before_of_parametersAt? hline hexact.split hany.split hle hexact.here hany.here
  refine ⟨before, ?_, hlast⟩
  rw [parameters?_eq_leftmost, hany.leftmost_eq]

/-! ## Attributes -/

/-- Whether an attribute starts at one of the first `n` places of a text. -/
def attributeWithin (n : Nat) (s : List Char) : Bool := (s.tails.take n).any fun place => (attributeAt? place).isSome

theorem attributeWithin_cons (n : Nat) (c : Char) (s : List Char) :
    attributeWithin (n + 1) (c :: s) = ((attributeAt? (c :: s)).isSome || attributeWithin n s) := by
  rw [attributeWithin, List.tails_cons, List.take_succ_cons, List.any_cons, ← attributeWithin]

theorem firstAttribute?_behind (h : attributeWithin before.length (before ++ inside) = false) :
    firstAttribute? (before ++ inside) = firstAttribute? inside := by
  induction before with
  | nil => rfl
  | cons c before ih =>
    rw [List.length_cons, List.cons_append, attributeWithin_cons, Bool.or_eq_false_iff, Option.isSome_eq_false_iff,
      Option.isNone_iff_eq_none] at h
    rw [List.cons_append, firstAttribute?, h.1, ih h.2, Option.none_or]

theorem furtherAttribute?_behind (h : attributeWithin before.length (before ++ inside) = false)
    (hlast : before.getLast? ≠ some ',') : furtherAttribute? (before ++ inside) = furtherAttribute? inside := by
  induction before with
  | nil => rfl
  | cons c before ih =>
    rw [List.length_cons, List.cons_append, attributeWithin_cons, Bool.or_eq_false_iff] at h
    rw [List.cons_append, furtherAttribute?]
    cases before with
    | nil =>
      have hc : c ≠ ',' := fun hc => hlast (congrArg some hc)
      rw [if_neg hc, Option.none_or, List.nil_append]
    | cons d before =>
      have hnext : attributeAt? (d :: before ++ inside) = none := by
        have hplaces := h.2
        rw [List.length_cons, List.cons_append, attributeWithin_cons, Bool.or_eq_false_iff, Option.isSome_eq_false_iff,
          Option.isNone_iff_eq_none] at hplaces
        exact hplaces.1
      rw [hnext, ite_self, Option.none_or, ih h.2 (by simpa using hlast)]

/-! ## Members -/

/-- Whether an attribute stands in the way of the annotation in small letters: it is written before the parameters of
that annotation, in one of another spelling. -/
def isShadowed (line : List Char) : Bool :=
  match parameters? exactly line, parameters? anyCase line with
  | some inside, some wide => attributeWithin (wide.length - inside.length) wide
  | _, _ => false

/-- Reading in any letter case keeps the members of an annotation in small letters that nothing stands in the way of. -/
theorem suiteMembers_sublist (hline : '\n' ∉ line) (h : isShadowed line = false) (n : Int) :
    List.Sublist (suiteMembers exactly n line) (suiteMembers anyCase n line) := by
  cases hinside : parameters? exactly line with
  | none =>
    rw [suiteMembers, hinside]
    exact List.nil_sublist _
  | some inside =>
    obtain ⟨before, hwide, hlast⟩ := parameters?_anyCase hline hinside
    have hbefore : (before ++ inside).length - inside.length = before.length := by
      rw [List.length_append]
      omega
    simp only [isShadowed, hinside, hwide, hbefore] at h
    simp only [suiteMembers, hinside, hwide]
    rw [firstAttribute?_behind h, furtherAttribute?_behind h hlast]

end TestDiscovery.Grammar
