-- SUMMARY: Small letters for capitals: cutting, trimming, searching and keywords see no difference.
import TestDiscovery.Proofs.Text.Keyword
import TestDiscovery.Proofs.Text.Leftmost
import TestDiscovery.Proofs.Text.Lower
import TestDiscovery.Text.Lines

/-!
# Letter case

Within ASCII a text is put into small letters character by character. Blanks, separators and all other characters that
are no letters stay what they are and where they are, and no other character becomes one of them. So a text is read in
the same way before and after: each reader gives the same pieces, with small letters.
-/

namespace TestDiscovery.Text

/-! ## Small letters -/

/-- The text with small letters for its capitals, within ASCII. -/
def small (s : List Char) : List Char := s.map Char.toLower

/-- The texts differ in the case of their letters only, within ASCII. -/
def SameLetters (s t : List Char) : Prop := small s = small t

instance (s t : List Char) : Decidable (SameLetters s t) := inferInstanceAs (Decidable (small s = small t))

variable {s t r k : List Char} {c d : Char}

@[simp] theorem small_nil : small [] = [] := rfl

@[simp] theorem small_cons (c : Char) (s : List Char) : small (c :: s) = c.toLower :: small s := rfl

@[simp] theorem length_small (s : List Char) : (small s).length = s.length := List.length_map _

@[simp] theorem isEmpty_small (s : List Char) : (small s).isEmpty = s.isEmpty := List.isEmpty_map

theorem take_small (n : Nat) (s : List Char) : (small s).take n = small (s.take n) := (List.map_take ..).symm

theorem SameLetters.length_eq (h : SameLetters s t) : s.length = t.length := by
  rw [← length_small s, h, length_small]

/-! ## Characters -/

/-- The capitals of ASCII. -/
def capitals : List Char := (List.range' 65 26).map Char.ofNat

/-- A character is its own small letter, or a capital. -/
theorem toLower_eq_self_or_mem_capitals (c : Char) : c.toLower = c ∨ c ∈ capitals := by
  by_cases hupper : 65 ≤ c.toNat ∧ c.toNat ≤ 90
  · right
    rw [← Char.ofNat_toNat c]
    refine List.mem_map_of_mem (List.mem_range'_1.2 ?_)
    omega
  · left
    unfold Char.toLower
    exact dif_neg hupper

/-- What relates a character to itself, and each capital to its small letter, relates any character to its own. -/
theorem toLower_induction {P : Char → Char → Bool} (hself : P c c = true)
    (hcapitals : capitals.all (fun c => P c c.toLower) = true) : P c c.toLower = true := by
  rcases toLower_eq_self_or_mem_capitals c with h | h
  · rw [h]
    exact hself
  · exact List.all_eq_true.1 hcapitals c h

theorem toLower_toLower (c : Char) : c.toLower.toLower = c.toLower := by
  rcases toLower_eq_self_or_mem_capitals c with h | h
  · rw [h, h]
  · have hall : capitals.all (fun c => c.toLower.toLower == c.toLower) = true := by decide
    exact eq_of_beq (List.all_eq_true.1 hall c h)

theorem small_small (s : List Char) : small (small s) = small s := by
  rw [small, small, List.map_map]
  exact List.map_congr_left fun c _ => toLower_toLower c

theorem isBlank_toLower (c : Char) : isBlank c.toLower = isBlank c := by
  have hsame : (isBlank c.toLower == isBlank c) = true :=
    toLower_induction (P := fun c d => isBlank d == isBlank c) (beq_self_eq_true _) (by decide)
  exact eq_of_beq hsame

/-- A character that is no letter is put for itself only. -/
theorem toLower_eq_iff (hd : d.isAlpha = false) : c.toLower = d ↔ c = d := by
  rcases toLower_eq_self_or_mem_capitals c with h | h
  · rw [h]
  · have hletters : capitals.all (fun c => c.isAlpha && c.toLower.isAlpha) = true := by decide
    have hc := List.all_eq_true.1 hletters c h
    rw [Bool.and_eq_true] at hc
    constructor
    · rintro rfl
      exact absurd hc.2 (by simp [hd])
    · rintro rfl
      exact absurd hc.1 (by simp [hd])

/-- Neither a capital nor its small letter is one of the further characters that keywords fit. -/
theorem anyCase_of_mem_capitals {e : Char} (hc : c ∈ capitals) (he : e = c ∨ e = c.toLower) (d : Char) :
    anyCase d e = (d == e || (d.isLower && e.isUpper && e.toLower == d)) := by
  have hothers : capitals.all (fun c => [c, c.toLower].all fun e =>
      e != 'ſ' && e != '\u212a' && e != 'İ' && e != 'ı') = true := by decide
  have hpair : e ∈ [c, c.toLower] := by simpa using he
  have hother := List.all_eq_true.1 (List.all_eq_true.1 hothers c hc) e hpair
  simp only [Bool.and_eq_true, bne_iff_ne, ne_eq] at hother
  obtain ⟨⟨⟨hs, hk⟩, hdotted⟩, hdotless⟩ := hother
  simp [anyCase, beq_false_of_ne hs, beq_false_of_ne hk, beq_false_of_ne hdotted, beq_false_of_ne hdotless]

theorem bne_toLower (hd : d.isAlpha = false) (c : Char) : (c.toLower != d) = (c != d) := by
  rw [Bool.eq_iff_iff, bne_iff_ne, bne_iff_ne, Ne, Ne, toLower_eq_iff hd]

/-- A small letter of a keyword does not tell the two cases of a letter apart. -/
theorem anyCase_small (hd : d.toLower = d) : anyCase d c.toLower = anyCase d c := by
  rcases toLower_eq_self_or_mem_capitals c with h | h
  · rw [h]
  · have hcapital : capitals.all (fun c => c.isUpper && !c.toLower.isUpper && c.toLower.isLower && c != c.toLower) =
        true := by decide
    have hc := List.all_eq_true.1 hcapital c h
    simp only [Bool.and_eq_true, Bool.not_eq_true', bne_iff_ne, ne_eq] at hc
    obtain ⟨⟨⟨hupper, hsmall⟩, hlower⟩, hne⟩ := hc
    have hother : d ≠ c := by
      rintro rfl
      exact hne hd.symm
    rw [anyCase_of_mem_capitals h (.inl rfl), anyCase_of_mem_capitals h (.inr rfl)]
    by_cases heq : d = c.toLower
    · simp [heq, hlower, hupper]
    · simp [beq_false_of_ne heq, beq_false_of_ne (Ne.symm heq), beq_false_of_ne hother, hsmall]

/-- Up to the form of the sigma, a letter has the same full lower case in both cases. -/
theorem Lower.plain_toLower (c : Char) : Lower.plain c.toLower = Lower.plain c := by
  have hsame : (Lower.plain c.toLower == Lower.plain c) = true :=
    toLower_induction (P := fun c d => Lower.plain d == Lower.plain c) (beq_self_eq_true _) (by decide)
  exact eq_of_beq hsame

theorem Lower.flatMap_plain_small (s : List Char) : (small s).flatMap Lower.plain = s.flatMap Lower.plain := by
  rw [small, List.flatMap_map]
  congr 1
  funext c
  exact Lower.plain_toLower c

/-! ## Runs -/

variable {p : Char → Bool}

theorem takeWhile_small (hp : ∀ c, p c.toLower = p c) (s : List Char) :
    (small s).takeWhile p = small (s.takeWhile p) := by
  have hsame : p ∘ Char.toLower = p := funext hp
  rw [small, List.takeWhile_map, hsame]
  rfl

theorem dropWhile_small (hp : ∀ c, p c.toLower = p c) (s : List Char) :
    (small s).dropWhile p = small (s.dropWhile p) := by
  have hsame : p ∘ Char.toLower = p := funext hp
  rw [small, List.dropWhile_map, hsame]
  rfl

theorem word_small (s : List Char) : word (small s) = small (word s) :=
  takeWhile_small (fun c => by rw [isBlank_toLower]) s

theorem afterWord_small (s : List Char) : afterWord (small s) = small (afterWord s) :=
  dropWhile_small (fun c => by rw [isBlank_toLower]) s

theorem trimLeft_small (s : List Char) : trimLeft (small s) = small (trimLeft s) := dropWhile_small isBlank_toLower s

theorem trim_small (s : List Char) : trim (small s) = small (trim s) := by
  unfold trim trimRight
  rw [trimLeft_small, small, small, ← List.map_reverse, ← small, dropWhile_small isBlank_toLower, small,
    List.map_reverse]

theorem startsBlank_small (s : List Char) : startsBlank (small s) = startsBlank s := by
  cases s with
  | nil => rfl
  | cons c s => exact isBlank_toLower c

/-! ## Signs and keywords -/

/-- Signs that are no letters start a text in either case. -/
theorem prefix_small_iff {signs : List Char} (h : ∀ c ∈ signs, c.isAlpha = false) :
    signs <+: small s ↔ signs <+: s := by
  induction signs generalizing s with
  | nil => simp
  | cons d signs ih =>
    cases s with
    | nil => simp
    | cons c s =>
      rw [small_cons, List.cons_prefix_cons, List.cons_prefix_cons, ih fun e he => h e (List.mem_cons_of_mem d he),
        eq_comm, toLower_eq_iff (h d List.mem_cons_self), eq_comm]

theorem splitLast?_small (hd : d.isAlpha = false) (s : List Char) :
    splitLast? d (small s) = (splitLast? d s).map fun parts => (small parts.1, small parts.2) := by
  induction s with
  | nil => rfl
  | cons c r ih =>
    rw [small_cons, splitLast?, splitLast?, ih]
    cases splitLast? d r with
    | some parts => rfl
    | none =>
      by_cases hc : c = d
      · simp [hc, (toLower_eq_iff hd).2 rfl]
      · simp [hc, mt (toLower_eq_iff hd).1 hc]

theorem splitOn_small (hd : d.isAlpha = false) (s : List Char) : splitOn d (small s) = (splitOn d s).map small := by
  induction s with
  | nil => rfl
  | cons c r ih =>
    rw [small_cons, splitOn, splitOn, ih]
    by_cases hc : c = d
    · rw [if_pos ((toLower_eq_iff hd).2 hc), if_pos hc]
      rfl
    · rw [if_neg (mt (toLower_eq_iff hd).1 hc), if_neg hc]
      cases splitOn d r <;> rfl

theorem lines_small (s : List Char) : lines (small s) = (lines s).map small := splitOn_small (by decide) s

/-- A keyword in small letters is found in front of a text whatever the case of the letters there. -/
theorem afterKeyword?_small (hk : small k = k) (s : List Char) :
    afterKeyword? anyCase k (small s) = (afterKeyword? anyCase k s).map small := by
  induction k generalizing s with
  | nil => rfl
  | cons a k ih =>
    rw [small_cons, List.cons.injEq] at hk
    cases s with
    | nil => rfl
    | cons c s =>
      rw [small_cons, afterKeyword?, afterKeyword?, anyCase_small hk.1, ih hk.2]
      split <;> rfl

/-- Where each place gives the same with small letters, so does the search. -/
theorem leftmost_small {σ α : Type} {look : σ → List Char → Option α} {next : σ → Char → σ} (put : α → α)
    (hlook : ∀ state s, look state (small s) = (look state s).map put)
    (hnext : ∀ state c, next state c.toLower = next state c) (state : σ) (s : List Char) :
    leftmost look next state (small s) = (leftmost look next state s).map put := by
  induction s generalizing state with
  | nil => rfl
  | cons c r ih =>
    rw [small_cons, leftmost, leftmost, ← small_cons, hlook, hnext, ih]
    cases look state (c :: r) <;> rfl

end TestDiscovery.Text
