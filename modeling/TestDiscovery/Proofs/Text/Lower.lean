-- SUMMARY: Lower case of a text, character by character up to the form of the sigma.
import TestDiscovery.Proofs.Text.Blank
import TestDiscovery.Text.Lines
import TestDiscovery.Text.Lower

/-!
# Lower case

Lower case is no map of characters: the form of a sigma hangs on its neighbours, and one letter becomes two. But it is
one up to the form of the sigma. It leaves blanks and all characters before the letters as they are, and makes no such
character of another one.
-/

namespace TestDiscovery

namespace Text.Lower

/-! ## Lower case up to the sigma -/

/-- A character, with the one form of the small sigma for the other. -/
def unsigma (c : Char) : Char := if c = 'ς' then 'σ' else c

/-- The lower case of a character, up to the form of the sigma. -/
def plain (c : Char) : List Char := if c = 'Σ' then ['σ'] else (ofChar c).map unsigma

theorem unsigma_sigma (before after : List Char) : unsigma (sigma before after) = 'σ' := by
  unfold sigma
  split <;> rfl

theorem map_unsigma_after (before s : List Char) : (after before s).map unsigma = s.flatMap plain := by
  induction s generalizing before with
  | nil => rfl
  | cons c r ih =>
    rw [after, List.map_append, List.flatMap_cons, ih]
    unfold plain
    split
    · rw [List.map_cons, unsigma_sigma, List.map_nil]
    · rfl

/-- A text without sigmas occurs in another one whatever the form of the sigmas there. -/
theorem infix_map_unsigma_iff {needle s : List Char} (hfinal : 'ς' ∉ needle) (hinner : 'σ' ∉ needle) :
    needle <:+: s.map unsigma ↔ needle <:+: s := by
  constructor
  · intro h
    obtain ⟨stretch, hstretch, rfl⟩ := List.infix_map_iff.1 h
    have hsame : stretch.map unsigma = stretch := by
      refine (List.map_congr_left ?_).trans (List.map_id stretch)
      intro c hc
      unfold unsigma
      split
      · next hfinal' =>
        have hmem : unsigma c ∈ stretch.map unsigma := List.mem_map_of_mem hc
        rw [unsigma, if_pos hfinal'] at hmem
        exact absurd hmem hinner
      · rfl
    rwa [hsame]
  · intro h
    have hsame : needle.map unsigma = needle := by
      refine (List.map_congr_left ?_).trans (List.map_id needle)
      intro c hc
      exact if_neg fun (hc' : c = 'ς') => hfinal (hc' ▸ hc)
    exact hsame ▸ h.map unsigma

theorem infix_toLower_iff {needle s : List Char} (hfinal : 'ς' ∉ needle) (hinner : 'σ' ∉ needle) :
    needle <:+: toLower s ↔ needle <:+: s.flatMap plain := by
  rw [← map_unsigma_after [] s]
  exact (infix_map_unsigma_iff hfinal hinner).symm

/-- Joined pieces are lower-cased one by one, if the separator is its own lower case. -/
theorem flatMap_plain_joinWith {sep : Char} (hsep : plain sep = [sep]) (pieces : List (List Char)) :
    (joinWith sep pieces).flatMap plain = joinWith sep (pieces.map (·.flatMap plain)) := by
  induction pieces with
  | nil => rfl
  | cons piece pieces ih =>
    cases pieces with
    | nil => rfl
    | cons next pieces =>
      rw [joinWith, List.flatMap_append, List.flatMap_cons, hsep, ih]
      rfl

end Text.Lower

namespace Text

/-! ## Blanks -/

/-- A blank is its own lower case. -/
theorem Lower.plain_of_isBlank {c : Char} (h : isBlank c = true) : Lower.plain c = [c] := by
  have hall : blanks.map Lower.plain = blanks.map ([·]) := by decide
  exact List.map_inj_left.1 hall c (mem_blanks h)

theorem Lower.flatMap_plain_of_allBlank {s : List Char} (h : AllBlank s) : s.flatMap Lower.plain = s := by
  induction s with
  | nil => rfl
  | cons c s ih =>
    rw [List.flatMap_cons, Lower.plain_of_isBlank (h c List.mem_cons_self),
      ih fun d hd => h d (List.mem_cons_of_mem c hd)]
    rfl

/-! ## ASCII -/

theorem toNat_toLower_lt {c : Char} (h : c.toNat < 128) : c.toLower.toNat < 128 := by
  unfold Char.toLower
  split
  · next hupper =>
    have hcode : c.val.toNat ≤ 90 := hupper.2
    change (c.val + 32).toNat < 128
    rw [UInt32.toNat_add]
    exact Nat.lt_of_le_of_lt (Nat.mod_le _ _) (Nat.add_lt_of_lt_sub (Nat.lt_of_le_of_lt hcode (by decide)))
  · exact h

theorem toNat_lt_of_toLower {c : Char} (h : c.toLower.toNat < 128) : c.toNat < 128 := by
  unfold Char.toLower at h
  split at h
  · next hupper => exact Nat.lt_of_le_of_lt hupper.2 (by decide)
  · exact h

theorem Lower.unsigma_of_ascii {c : Char} (h : c.toNat < 128) : Lower.unsigma c = c := by
  unfold Lower.unsigma
  split
  · next hfinal =>
    subst hfinal
    exact absurd h (by decide)
  · rfl

/-- Within ASCII, lower case is one character for another. -/
theorem Lower.plain_of_ascii {c : Char} (h : c.toNat < 128) : Lower.plain c = [c.toLower] := by
  unfold Lower.plain Lower.ofChar
  split
  · next hsigma =>
    subst hsigma
    exact absurd h (by decide)
  · rw [List.map_singleton, Lower.unsigma_of_ascii (toNat_toLower_lt h)]

theorem Lower.flatMap_plain_of_ascii {s : List Char} (h : ∀ c ∈ s, c.toNat < 128) :
    s.flatMap Lower.plain = s.map Char.toLower := by
  induction s with
  | nil => rfl
  | cons c s ih =>
    rw [List.flatMap_cons, Lower.plain_of_ascii (h c List.mem_cons_self),
      ih fun d hd => h d (List.mem_cons_of_mem c hd)]
    rfl

/-- The lower case of a character beyond ASCII lies beyond the capitals. -/
theorem Lower.lt_mapPoint {n : Nat} (h : 128 ≤ n) : 90 < Lower.mapPoint n := by
  have hrows : Lower.mappings.all (fun row => 90 < (row.1 : Int) + row.2.2.2) = true := by decide
  unfold Lower.mapPoint
  split
  · next first last step shift hfound =>
    have hrow := List.all_eq_true.1 hrows _ (List.mem_of_find?_eq_some hfound)
    have hfits := List.find?_some hfound
    simp only [Bool.and_eq_true, decide_eq_true_eq] at hrow hfits
    omega
  · omega

/-- Lower case makes a character before the letters of no other character. -/
theorem Lower.eq_of_mem_plain {c d : Char} (hpos : 0 < d.toNat) (hd : d.toNat < 65) (h : d ∈ Lower.plain c) :
    c = d := by
  by_cases hascii : c.toNat < 128
  · rw [Lower.plain_of_ascii hascii, List.mem_singleton] at h
    unfold Char.toLower at h
    split at h
    · next hupper =>
      have hcode : (c.val + 32).toNat = d.toNat := congrArg Char.toNat h.symm
      have hlow : 65 ≤ c.val.toNat := hupper.1
      have hhigh : c.val.toNat ≤ 90 := hupper.2
      rw [UInt32.toNat_add] at hcode
      change (c.val.toNat + 32) % 4294967296 = d.toNat at hcode
      omega
    · exact h.symm
  · have hletter (letter : Char) (hcode : 65 ≤ letter.toNat) : d ≠ letter := by
      rintro rfl
      exact Nat.not_lt.2 hcode hd
    unfold Lower.plain Lower.ofChar at h
    rw [if_neg hascii] at h
    split at h
    · exact absurd (List.mem_singleton.1 h) (hletter 'σ' (by decide))
    · split at h
      · have hletters : ['i', '\u0307'].map Lower.unsigma = ['i', '\u0307'] := by decide
        rw [hletters] at h
        rcases List.mem_cons.1 h with h | h
        · exact absurd h (hletter 'i' (by decide))
        · exact absurd (List.mem_singleton.1 h) (hletter '\u0307' (by decide))
      · have hbound := Lower.lt_mapPoint (Nat.le_of_not_lt hascii)
        rw [List.map_singleton, List.mem_singleton] at h
        unfold Lower.unsigma at h
        split at h
        · exact absurd h (hletter 'σ' (by decide))
        · have hcode : (Char.ofNat (Lower.mapPoint c.toNat)).toNat = d.toNat := congrArg Char.toNat h.symm
          unfold Char.ofNat at hcode
          by_cases hvalid : (Lower.mapPoint c.toNat).isValidChar
          · rw [dif_pos hvalid] at hcode
            have hpoint : Lower.mapPoint c.toNat = d.toNat := hcode
            omega
          · rw [dif_neg hvalid] at hcode
            have hzero : 0 = d.toNat := hcode
            omega

/-- Lower case leaves a character before the letters where it is. -/
theorem count_toLower {d : Char} (hpos : 0 < d.toNat) (hd : d.toNat < 65) (s : List Char) :
    (toLower s).count d = s.count d := by
  have hunsigma (c : Char) : (Lower.unsigma c == d) = (c == d) := by
    unfold Lower.unsigma
    split
    · next hfinal =>
      subst hfinal
      have hform (form : Char) (hcode : 65 ≤ form.toNat) : (form == d) = false := by
        rw [beq_eq_false_iff_ne]
        rintro rfl
        exact Nat.not_lt.2 hcode hd
      rw [hform 'σ' (by decide), hform 'ς' (by decide)]
    · rfl
  have hplain (c : Char) : (Lower.plain c).count d = if c = d then 1 else 0 := by
    split
    · next heq =>
      subst heq
      have hlower : c.toLower = c := by
        unfold Char.toLower
        exact dif_neg fun hupper => Nat.not_lt.2 hupper.1 hd
      rw [Lower.plain_of_ascii (Nat.lt_trans hd (by decide)), hlower, List.count_singleton_self]
    · next hne => exact List.count_eq_zero.2 fun hmem => hne (Lower.eq_of_mem_plain hpos hd hmem)
  have hflat : (s.flatMap Lower.plain).count d = s.count d := by
    induction s with
    | nil => rfl
    | cons c s ih =>
      rw [List.flatMap_cons, List.count_append, hplain, ih, List.count_cons, Nat.add_comm]
      simp only [beq_iff_eq]
  calc (toLower s).count d = ((toLower s).map Lower.unsigma).count d := by
        unfold List.count
        rw [List.countP_map]
        exact List.countP_congr fun c _ => by rw [Function.comp_apply, hunsigma]
    _ = s.count d := by rw [toLower, Lower.map_unsigma_after, hflat]

end Text

end TestDiscovery
