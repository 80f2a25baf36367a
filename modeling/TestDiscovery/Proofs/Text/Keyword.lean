-- SUMMARY: How a keyword may be written: the characters that spell it, one for one, and every letter case of it.
import Mathlib.Data.List.Forall2
import TestDiscovery.Proofs.Text.Blank

/-!
# Spellings of keywords

A keyword in front of a text is spelled by as many characters as it has, each of which fits its letter. Every letter
case of a keyword is a spelling of it.
-/

namespace TestDiscovery.Text

variable {fits : Fits} {k s r : List Char}

/-- The characters of a text fit those of a keyword one for one. -/
def Spells (fits : Fits) (k s : List Char) : Prop := List.Forall₂ (fun a c => fits a c = true) k s

/-- What follows a keyword follows a spelling of it. -/
theorem afterKeyword?_eq_some_iff : afterKeyword? fits k s = some r ↔ ∃ w, Spells fits k w ∧ s = w ++ r := by
  unfold Spells
  induction k generalizing s with
  | nil =>
    rw [afterKeyword?, Option.some.injEq]
    constructor
    · rintro rfl
      exact ⟨[], .nil, rfl⟩
    · rintro ⟨w, hw, rfl⟩
      cases hw
      rfl
  | cons a k ih =>
    cases s with
    | nil => simp [afterKeyword?, List.forall₂_cons_left_iff]
    | cons c s =>
      rw [afterKeyword?]
      constructor
      · intro h
        split at h
        · next hfit =>
          obtain ⟨w, hw, rfl⟩ := ih.1 h
          exact ⟨c :: w, .cons hfit hw, rfl⟩
        · cases h
      · rintro ⟨w, hw, hsplit⟩
        cases hw with
        | cons hfit hw =>
          obtain ⟨rfl, rfl⟩ := List.cons.inj hsplit
          rw [if_pos hfit]
          exact ih.2 ⟨_, hw, rfl⟩

/-- A character that fits no letter of a keyword is in no spelling of it. -/
theorem Spells.not_mem {c : Char} (h : Spells fits k s) (hc : ∀ a ∈ k, fits a c = false) : c ∉ s := by
  induction h with
  | nil => simp
  | @cons a d k s hfit _ ih =>
    intro hmem
    rcases List.mem_cons.1 hmem with rfl | hmem
    · exact absurd hfit (by simp [hc a List.mem_cons_self])
    · exact ih (fun b hb => hc b (List.mem_cons_of_mem a hb)) hmem

/-- What spells a keyword without blanks has none. -/
theorem Spells.noBlank (h : Spells fits k s) (hfits : KeepsBlanks fits) (hk : NoBlank k) : NoBlank s := by
  intro c hc
  by_contra hblank
  refine h.not_mem (fun a ha => ?_) hc
  by_contra hfit
  have ha' : isBlank a = true := hfits a c (by simpa using hblank) (by simpa using hfit)
  simp [hk a ha] at ha'

/-- A text that starts with the spelling of a keyword without blanks starts with no blank. -/
theorem Spells.startsBlank_append (h : Spells fits k s) (hfits : KeepsBlanks fits) (hk : NoBlank k) (hne : k ≠ [])
    (r : List Char) : startsBlank (s ++ r) = false := by
  refine startsBlank_word_append (fun hnil => hne ?_) (h.noBlank hfits hk) r
  have hlength := h.length_eq
  rw [hnil] at hlength
  exact List.length_eq_zero_iff.1 hlength

theorem Spells.refl (hfits : ∀ c, fits c c = true) (k : List Char) : Spells fits k k := List.forall₂_same.2 fun c _ => hfits c

theorem spells_exactly_iff : Spells exactly k s ↔ s = k := by
  have heq : (fun a c : Char => exactly a c = true) = Eq := by
    funext a c
    rw [exactly, beq_iff_eq]
  rw [Spells, heq, List.forall₂_eq_eq_eq]
  exact eq_comm

/-- A keyword is a spelling of itself in any case. -/
theorem Spells.anyCase_of_exactly (h : Spells exactly k s) : Spells anyCase k s := by
  rw [spells_exactly_iff] at h
  rw [h]
  exact .refl (fun c => by simp [anyCase]) k

/-! ## Letter case -/

/-- A text is a word in some letter case. -/
def InAnyCase (k s : List Char) : Prop := s.map Char.toLower = k

instance (k s : List Char) : Decidable (InAnyCase k s) := inferInstanceAs (Decidable (s.map Char.toLower = k))

/-- A letter fits each of its two cases. -/
theorem anyCase_toLower (c : Char) : anyCase c.toLower c = true := by
  have hcapitals : ∀ n ∈ List.range' 65 26, anyCase (Char.ofNat n).toLower (Char.ofNat n) = true := by decide
  by_cases hupper : 65 ≤ c.toNat ∧ c.toNat ≤ 90
  · rw [← Char.ofNat_toNat c]
    refine hcapitals _ (List.mem_range'_1.2 ?_)
    omega
  · have hlower : c.toLower = c := by
      unfold Char.toLower
      exact dif_neg hupper
    simp [anyCase, hlower]

/-- A letter without further spellings fits no case of another letter. -/
theorem anyCase_eq_false {a b c : Char} (h : c.toLower = b) (hab : a ≠ b) (hsmall : a.toLower = a)
    (hfurther : a ∉ ['s', 'k', 'i']) : anyCase a c = false := by
  have hself : a ≠ c := by
    rintro rfl
    exact hab (hsmall.symm.trans h)
  simp only [List.mem_cons, List.not_mem_nil, or_false, not_or] at hfurther
  obtain ⟨hs, hk, hi⟩ := hfurther
  simp [anyCase, h, hself, Ne.symm hab, hs, hk, hi]

/-- What fits a letter without further spellings is that letter in some case. -/
theorem toLower_of_anyCase {a c : Char} (h : anyCase a c = true) (hsmall : a.toLower = a)
    (hfurther : a ∉ ['s', 'k', 'i']) : c.toLower = a := by
  by_contra hlower
  rw [anyCase_eq_false rfl (Ne.symm hlower) hsmall hfurther] at h
  cases h

theorem InAnyCase.spells (h : InAnyCase k s) : Spells anyCase k s := by
  obtain rfl := h
  unfold Spells
  rw [List.forall₂_map_left_iff]
  exact List.forall₂_same.2 fun c _ => anyCase_toLower c

/-- A blank is its own small letter. -/
theorem toLower_of_isBlank {c : Char} (h : isBlank c = true) : c.toLower = c := by
  have hall : blanks.map Char.toLower = blanks.map id := by decide
  exact List.map_inj_left.1 hall c (mem_blanks h)

theorem InAnyCase.noBlank (h : InAnyCase k s) (hk : NoBlank k) : NoBlank s := by
  intro c hc
  have hlower : isBlank c.toLower = false := hk _ (h ▸ List.mem_map_of_mem hc)
  rw [Bool.eq_false_iff]
  intro hblank
  rw [toLower_of_isBlank hblank, hblank] at hlower
  cases hlower

end TestDiscovery.Text
