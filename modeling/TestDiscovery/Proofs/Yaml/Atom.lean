-- SUMMARY: A scalar with an implied tag has a value, or breaks a rule.
import Mathlib.Data.List.Nodup
import TestDiscovery.Proofs.Outcome
import TestDiscovery.Proofs.Text.Lower
import TestDiscovery.Proofs.Text.Pieces
import TestDiscovery.Proofs.Yaml.Event
import TestDiscovery.Yaml.Atom

/-!
# Values of untagged scalars

A tag that the form of a scalar implies comes with that form. So a whole number has a digit, a floating-point number has
a point, and a time reads as one; and with few colons no place of a number in base 60 has too large a weight. Under
such a tag reading the scalar cannot break down.
-/

namespace TestDiscovery.Yaml

open TestDiscovery.Text (isDigit)

variable {s : List Char} {c : Char} {text : String}

/-! ## Forms -/

theorem Tag.mem_dropSign (hc : c ∈ s) (hsign : isSign c = false) : c ∈ dropSign s := by
  cases s with
  | nil => exact hc
  | cons first rest =>
    rw [dropSign]
    split
    · next hfirst =>
      rcases List.mem_cons.1 hc with rfl | hrest
      · rw [hsign] at hfirst
        cases hfirst
      · exact hrest
    · exact hc

theorem Tag.dropSign_suffix (s : List Char) : dropSign s <:+ s := by
  cases s with
  | nil => exact List.suffix_refl _
  | cons first rest =>
    rw [dropSign]
    split
    · exact List.suffix_cons _ _
    · exact List.suffix_refl _

theorem Tag.dropFinalBreak_subset (s : List Char) : dropFinalBreak s ⊆ s := by
  unfold dropFinalBreak
  split
  · next r hr =>
    intro c hc
    rw [← List.mem_reverse, hr]
    exact List.mem_cons_of_mem _ (List.mem_reverse.1 hc)
  · exact fun _ hc => hc

/-- What has the form of a whole number has a digit. -/
theorem Tag.exists_digit_of_isIntForm (h : isIntForm s = true) : ∃ d ∈ s, isDigit d = true := by
  have hbody : ∀ d ∈ dropSign s, isDigit d = true → ∃ d ∈ s, isDigit d = true :=
    fun d hd hdigit => ⟨d, (dropSign_suffix s).subset hd, hdigit⟩
  have hdigits (r : List Char) (hr : isDigits r = true) : ∃ d ∈ r, isDigit d = true := by
    cases r with
    | nil => cases hr
    | cons d r => exact ⟨d, List.mem_cons_self, (Bool.and_eq_true_iff.1 hr).1⟩
  unfold isIntForm at h
  dsimp only at h
  generalize dropSign s = body at h hbody
  split at h
  · exact hbody '0' List.mem_cons_self (by decide)
  · exact hbody '0' List.mem_cons_self (by decide)
  · exact hbody '0' List.mem_cons_self (by decide)
  · rcases Bool.or_eq_true_iff.1 h with h | h
    · obtain ⟨d, hd, hdigit⟩ := hdigits _ h
      exact hbody d hd hdigit
    · unfold cutAll at h
      obtain ⟨d, hd, hdigit⟩ := hdigits _ (Bool.and_eq_true_iff.1 (Bool.and_eq_true_iff.1 h).1).1
      exact hbody d ((List.takeWhile_prefix _).subset hd) hdigit

/-- What has the form of a floating-point number has a point. -/
theorem Tag.point_mem_of_isFloatForm (h : isFloatForm s = true) : '.' ∈ s := by
  by_contra hnone
  have hbody : '.' ∉ dropSign s := fun hmem => hnone ((dropSign_suffix s).subset hmem)
  have hhead : (dropSign s).takeWhile (· != '.') = dropSign s := Text.takeWhile_of_not_mem hbody
  unfold isFloatForm at h
  dsimp only at h
  rw [hhead, List.drop_length] at h
  cases h

/-- A tag of a kind of scalars is implied by the form of that kind. -/
theorem Tag.fits_of_ofPlain {tag : String} (firsts : String) (fits : List Char → Bool)
    (hform : (firsts, fits, tag) ∈ forms) (hnull : tag ≠ null) (hstr : tag ≠ str) (h : ofPlain text = tag) :
    fits (dropFinalBreak text.toList) = true := by
  have htags : (forms.map (·.2.2)).Nodup := by decide
  unfold ofPlain at h
  split at h
  · exact absurd h.symm hnull
  · next c r htext =>
    split at h
    · next firsts' fits' tag' hfound =>
      have hsame := List.inj_on_of_nodup_map htags (List.mem_of_find?_eq_some hfound) hform h
      cases hsame
      have hfits := List.find?_some hfound
      rw [htext]
      exact (Bool.and_eq_true_iff.1 hfits).2
    · exact absurd h.symm hstr

/-! ## Whole numbers -/

theorem wholeIn_failsOnly (base : Nat) (s : List Char) : FailsOnly Error.IsInvalid (wholeIn base s) := by
  unfold wholeIn
  refine Yields.ite (fun _ => trivial) fun _ => ?_
  split <;> trivial

theorem mem_dropBars (hc : c ∈ s) (hbar : c ≠ '_') : c ∈ dropBars s :=
  List.mem_filter.2 ⟨hc, by simpa using hbar⟩

theorem whole_failsOnly (hc : c ∈ s) (hdigit : isDigit c = true) : FailsOnly Error.IsInvalid (whole s) := by
  have hsign : Tag.isSign c = false := by
    rw [Bool.eq_false_iff]
    intro hsign
    rcases Bool.or_eq_true_iff.1 hsign with hc | hc <;> rw [eq_of_beq hc] at hdigit <;> cases hdigit
  have hbody : c ∈ Tag.dropSign (dropBars s) := Tag.mem_dropSign (mem_dropBars hc (by rintro rfl; cases hdigit)) hsign
  unfold whole
  dsimp only
  generalize Tag.dropSign (dropBars s) = body at hbody ⊢
  split
  · exact absurd hbody List.not_mem_nil
  · trivial
  · exact (wholeIn_failsOnly 2 _).bind fun _ => trivial
  · exact (wholeIn_failsOnly 16 _).bind fun _ => trivial
  · exact (wholeIn_failsOnly 8 _).bind fun _ => trivial
  · refine Yields.ite (fun _ => ?_) fun _ => (wholeIn_failsOnly 10 _).bind fun _ => trivial
    exact (Yields.mapM fun part _ => wholeIn_failsOnly 10 part).bind fun _ _ => trivial

/-! ## Floating-point numbers -/

theorem unsignedDecimal_failsOnly (negative : Bool) (s : List Char) :
    FailsOnly Error.IsInvalid (unsignedDecimal negative s) := by
  unfold unsignedDecimal
  dsimp only
  split
  · exact Yields.ite (fun _ => trivial) fun _ => trivial
  · trivial

theorem decimal_failsOnly (s : List Char) : FailsOnly Error.IsInvalid (decimal s) := by
  unfold decimal
  refine Yields.ite (fun _ => trivial) fun _ => ?_
  exact Yields.ite (fun _ => trivial) fun _ => unsignedDecimal_failsOnly _ _

/-- The weight of a place of a number in base 60. -/
def placeWeight (k : Nat) : Nat := Nat.pow 60 k

theorem placeWeight_succ (k : Nat) : placeWeight k * 60 = placeWeight (k + 1) := rfl

/-- The weights of the places of a modest number are no larger than doubles can be. -/
theorem ofNat_placeWeight_ne_infinite {k : Nat} (hk : k ≤ maxIndicators) (negative : Bool) :
    Double.ofNat (placeWeight k) ≠ .infinite negative := by
  have hall : ∀ k ∈ List.range (maxIndicators + 1), ∀ negative, Double.ofNat (placeWeight k) ≠ .infinite negative := by
    decide +kernel
  exact hall k (List.mem_range.2 (Nat.lt_succ_of_le hk)) negative

theorem floatSixtieths_failsOnly (sum : Double) {k : Nat} (parts : List Double)
    (hk : k + parts.length ≤ maxIndicators + 1) :
    FailsOnly Error.IsInvalid (floatSixtieths sum (placeWeight k) parts) := by
  induction parts generalizing sum k with
  | nil => trivial
  | cons part parts ih =>
    rw [List.length_cons] at hk
    unfold floatSixtieths
    split
    · next negative hinfinite => exact absurd hinfinite (ofNat_placeWeight_ne_infinite (by omega) negative)
    · rw [placeWeight_succ]
      exact ih _ (by omega)

/-- A text with a point and few colons is read as a floating-point number or is none. -/
theorem float_failsOnly (hpoint : '.' ∈ s) (hcolons : s.count ':' ≤ maxIndicators) :
    FailsOnly Error.IsInvalid (float s) := by
  have hlower (d : Char) (hd : d = '.' ∨ d = ':') : (Text.toLower (dropBars s)).count d = (dropBars s).count d := by
    rcases hd with rfl | rfl <;> exact Text.count_toLower (by decide) (by decide) _
  have hpoint' : '.' ∈ Text.toLower (dropBars s) := by
    rw [← List.count_pos_iff, hlower '.' (.inl rfl), List.count_pos_iff]
    exact mem_dropBars hpoint (by decide)
  have hcolons' : (Tag.dropSign (Text.toLower (dropBars s))).count ':' ≤ maxIndicators := by
    refine Nat.le_trans ((Tag.dropSign_suffix _).sublist.count_le ':') ?_
    rw [hlower ':' (.inr rfl)]
    exact Nat.le_trans (List.filter_sublist.count_le ':') hcolons
  unfold float
  dsimp only
  generalize Text.toLower (dropBars s) = lowered at hpoint' hcolons' ⊢
  refine Yields.ite (fun hempty => ?_) fun _ => ?_
  · rw [List.isEmpty_iff.1 hempty] at hpoint'
    cases hpoint'
  refine Yields.ite (fun _ => trivial) fun _ => ?_
  refine Yields.ite (fun _ => trivial) fun _ => ?_
  refine Yields.ite (fun _ => ?_) fun _ => (decimal_failsOnly _).bind fun _ => trivial
  refine (Yields.length_mapM fun part _ => decimal_failsOnly part).bind fun parts hparts => ?_
  rw [Text.length_splitOn] at hparts
  have hsum := floatSixtieths_failsOnly .zero (k := 0) parts.reverse (by rw [List.length_reverse]; omega)
  exact hsum.bind fun _ => trivial

/-! ## Times -/

theorem timeOf?_failsOnly (h : Tag.isTimeForm (Tag.dropFinalBreak s) = true) :
    FailsOnly Error.IsInvalid (timeOf? s) := by
  unfold Tag.isTimeForm at h
  unfold timeOf?
  split at h
  · next t htime =>
    rw [htime]
    dsimp only
    split
    · exact Yields.ite (fun _ => trivial) fun _ => trivial
    · exact Yields.ite (fun _ => trivial) fun _ => trivial
  · cases h

/-! ## Base 64 -/

theorem Binary.decodeFrom_failsOnly (read left pads : Nat) (s : List Char) :
    FailsOnly Error.IsInvalid (decodeFrom read left pads s) := by
  induction s generalizing read left pads with
  | nil => exact Yields.ite (fun _ => trivial) fun _ => trivial
  | cons c s ih =>
    unfold decodeFrom
    refine Yields.ite (fun _ => ?_) fun _ => ?_
    · refine Yields.ite (fun _ => ?_) fun _ => ih _ _ _
      exact Yields.ite (fun _ => trivial) fun _ => ih _ _ _
    · split
      · exact ih _ _ _
      · refine Yields.ite (fun _ => ih _ _ _) fun _ => ?_
        refine Yields.ite (fun _ => (ih _ _ _).map fun _ _ => trivial) fun _ => ?_
        refine Yields.ite (fun _ => (ih _ _ _).map fun _ _ => trivial) fun _ => ?_
        exact (ih _ _ _).map fun _ _ => trivial

theorem Binary.decode_failsOnly (s : List Char) : FailsOnly Error.IsInvalid (decode s) :=
  Yields.ite (fun _ => decodeFrom_failsOnly 0 0 0 s) fun _ => trivial

/-! ## Atoms -/

theorem Tag.IsImplied.eq_ofPlain {tag : String} (h : IsImplied tag text) (hstr : tag ≠ str) :
    ofPlain text = tag ∧ text.toList.count ':' ≤ maxIndicators := by
  rcases h with heq | ⟨heq, hmodest⟩
  · exact absurd heq hstr
  · exact ⟨heq.symm, hmodest.2⟩

/-- A scalar with an implied tag has a value under it, or breaks a rule. -/
theorem Atom.ofText?_failsOnly {tag : String} (h : Tag.IsImplied tag text) {read : Except Error Atom}
    (hread : Atom.ofText? tag text = some read) : FailsOnly Error.IsInvalid read := by
  unfold Atom.ofText? at hread
  split at hread
  · cases hread
    trivial
  split at hread
  · cases hread
    split <;> trivial
  split at hread
  · next hint =>
    subst hint
    cases hread
    obtain ⟨hplain, -⟩ := h.eq_ofPlain (by decide)
    have hform := Tag.fits_of_ofPlain "-+0123456789" Tag.isIntForm (by simp [Tag.forms]) (by decide)
      (by decide) hplain
    obtain ⟨d, hd, hdigit⟩ := Tag.exists_digit_of_isIntForm hform
    exact (whole_failsOnly (Tag.dropFinalBreak_subset _ hd) hdigit).map fun _ _ => trivial
  split at hread
  · next hfloat =>
    subst hfloat
    cases hread
    obtain ⟨hplain, hcolons⟩ := h.eq_ofPlain (by decide)
    have hform := Tag.fits_of_ofPlain "-+0123456789." Tag.isFloatForm (by simp [Tag.forms]) (by decide)
      (by decide) hplain
    have hpoint := Tag.dropFinalBreak_subset _ (Tag.point_mem_of_isFloatForm hform)
    exact (float_failsOnly hpoint hcolons).map fun _ _ => trivial
  split at hread
  · cases hread
    exact (Binary.decode_failsOnly _).map fun _ _ => trivial
  split at hread
  · next htime =>
    subst htime
    cases hread
    obtain ⟨hplain, -⟩ := h.eq_ofPlain (by decide)
    have hform := Tag.fits_of_ofPlain "0123456789" Tag.isTimeForm (by simp [Tag.forms]) (by decide)
      (by decide) hplain
    exact (timeOf?_failsOnly hform).map fun _ _ => trivial
  split at hread
  · cases hread
    trivial
  · cases hread

/-- Only two angle brackets make a merge key. -/
theorem Tag.IsImplied.ne_merge {tag : String} (h : IsImplied tag text) : tag ≠ merge := by
  rcases h with rfl | ⟨rfl, hmodest⟩
  · decide
  · intro hmerge
    have hform := fits_of_ofPlain "<" (fun s => s == ['<', '<']) (by simp [forms]) (by decide)
      (by decide) hmerge
    refine hmodest.1 (dropFinalBreak_subset _ ?_)
    rw [eq_of_beq hform]
    exact List.mem_cons_self

end TestDiscovery.Yaml
