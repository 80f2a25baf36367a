-- SUMMARY: Blanks around a text: how cutting, trimming and keywords deal with them.
import TestDiscovery.Text.Keyword
import TestDiscovery.Text.Search
import TestDiscovery.Text.Blank

/-!
# Blanks around a text

Trimming takes the blanks in front of a text, and a word stops before the next ones.

Reading a text goes from front to end, and blanks at the end are what it leaves. A run of characters that are no blanks
stops before them, a keyword is found as without them, and what follows it has them at its end. Only trimming may come
to the end: then it takes the blanks as well.
-/

namespace TestDiscovery.Text

/-! ## The blanks -/

/-- All blanks. -/
def blanks : List Char :=
  [9, 10, 11, 12, 13, 0x1C, 0x1D, 0x1E, 0x1F, 0x20, 0x85, 0xA0, 0x1680, 0x2000, 0x2001, 0x2002, 0x2003, 0x2004, 0x2005,
    0x2006, 0x2007, 0x2008, 0x2009, 0x200A, 0x2028, 0x2029, 0x202F, 0x205F, 0x3000].map Char.ofNat

theorem mem_blanks {c : Char} (h : isBlank c = true) : c ∈ blanks := by
  rw [← Char.ofNat_toNat c]
  unfold blanks
  apply List.mem_map_of_mem
  simp only [isBlank, Bool.or_eq_true, Bool.and_eq_true, decide_eq_true_eq, beq_iff_eq] at h
  simp only [List.mem_cons, List.not_mem_nil, or_false]
  omega

/-- A text of nothing but blanks. -/
def AllBlank (s : List Char) : Prop := ∀ c ∈ s, isBlank c = true

/-- A text without blanks. -/
def NoBlank (s : List Char) : Prop := ∀ c ∈ s, isBlank c = false

-- Characters are finite in number, and deciding these by going through all of them would take too long.
instance (s : List Char) : Decidable (AllBlank s) := List.decidableBAll (isBlank · = true) s

instance (s : List Char) : Decidable (NoBlank s) := List.decidableBAll (isBlank · = false) s

theorem AllBlank.not_mem {ws : List Char} {c : Char} (h : AllBlank ws) (hc : isBlank c = false) : c ∉ ws :=
  fun hmem => absurd (h c hmem) (by simp [hc])

variable {s ws : List Char} {p : Char → Bool}

/-! ## Runs -/

/-- A run stops before characters that do not belong to it. -/
theorem takeWhile_append_of_stop (h : ∀ c ∈ ws, p c = false) : (s ++ ws).takeWhile p = s.takeWhile p := by
  have hnone : ws.takeWhile p = [] := by
    cases ws with
    | nil => rfl
    | cons c ws => rw [List.takeWhile_cons, h c List.mem_cons_self]; rfl
  rw [List.takeWhile_append, hnone, List.append_nil]
  split
  · next hall => exact (List.takeWhile_prefix p).eq_of_length hall |>.symm
  · rfl

theorem dropWhile_append_of_stop (h : ∀ c ∈ ws, p c = false) : (s ++ ws).dropWhile p = s.dropWhile p ++ ws := by
  have hall : ws.dropWhile p = ws := by
    cases ws with
    | nil => rfl
    | cons c ws => rw [List.dropWhile_cons, h c List.mem_cons_self]; rfl
  rw [List.dropWhile_append, hall]
  split
  · next hnone => rw [List.isEmpty_iff.1 hnone, List.nil_append]
  · rfl

/-- A run ends where it has no next character, or one that does not belong to it. -/
def StopsRun (p : Char → Bool) (s : List Char) : Prop := ∀ c, s.head? = some c → p c = false

theorem takeWhile_append_of_stopsRun (hs : ∀ c ∈ s, p c = true) (hws : StopsRun p ws) : (s ++ ws).takeWhile p = s := by
  rw [List.takeWhile_append_of_pos hs]
  cases ws with
  | nil => simp
  | cons c ws => simp [hws c rfl]

theorem dropWhile_append_of_stopsRun (hs : ∀ c ∈ s, p c = true) (hws : StopsRun p ws) : (s ++ ws).dropWhile p = ws := by
  rw [List.dropWhile_append_of_pos hs]
  cases ws with
  | nil => rfl
  | cons c ws => simp [hws c rfl]

theorem stopsRun_dropWhile (p : Char → Bool) (s : List Char) : StopsRun p (s.dropWhile p) := by
  intro c hc
  have hstop := List.head?_dropWhile_not p s
  rw [hc] at hstop
  simpa using hstop

theorem word_append (h : AllBlank ws) : word (s ++ ws) = word s :=
  takeWhile_append_of_stop fun c hc => by simp [h c hc]

theorem afterWord_append (h : AllBlank ws) : afterWord (s ++ ws) = afterWord s ++ ws :=
  dropWhile_append_of_stop fun c hc => by simp [h c hc]

/-! ## Trimming -/

/-- The text with blanks after it, unless there is nothing to put them after. -/
def padded (ws s : List Char) : List Char := if s.isEmpty then [] else s ++ ws

@[simp] theorem padded_nil (ws : List Char) : padded ws [] = [] := rfl

@[simp] theorem padded_cons (ws : List Char) (c : Char) (r : List Char) : padded ws (c :: r) = c :: (r ++ ws) := rfl

theorem head?_padded (ws s : List Char) : (padded ws s).head? = s.head? := by cases s <;> rfl

theorem trimLeft_append (h : AllBlank ws) : trimLeft (s ++ ws) = padded ws (trimLeft s) := by
  have hnone : ws.dropWhile isBlank = [] := by
    rw [← List.append_nil ws, List.dropWhile_append_of_pos h]
    rfl
  unfold trimLeft padded
  rw [List.dropWhile_append, hnone]

theorem trimRight_prefix (s : List Char) : trimRight s <+: s := by
  have hsuffix : s.reverse.dropWhile isBlank <:+ s.reverse := List.dropWhile_suffix isBlank
  rw [← List.reverse_prefix, List.reverse_reverse] at hsuffix
  exact hsuffix

theorem trimRight_append (h : AllBlank ws) : trimRight (s ++ ws) = trimRight s := by
  unfold trimRight
  rw [List.reverse_append, List.dropWhile_append_of_pos]
  exact fun c hc => h c (List.mem_reverse.1 hc)

theorem trim_append (h : AllBlank ws) : trim (s ++ ws) = trim s := by
  unfold trim
  rw [trimLeft_append h]
  cases trimLeft s with
  | nil => rfl
  | cons c r => rw [padded_cons, ← List.cons_append, trimRight_append h]

/-! ## In front of a text -/

theorem trimLeft_append_left (h : AllBlank ws) (s : List Char) : trimLeft (ws ++ s) = trimLeft s :=
  List.dropWhile_append_of_pos h

theorem trimLeft_eq_self (h : startsBlank s = false) : trimLeft s = s := by
  cases s with
  | nil => rfl
  | cons c r => exact List.dropWhile_cons_of_neg (by simpa [startsBlank] using h)

theorem startsBlank_append (hne : ws ≠ []) (h : AllBlank ws) (s : List Char) : startsBlank (ws ++ s) = true := by
  cases ws with
  | nil => exact absurd rfl hne
  | cons c ws => exact h c List.mem_cons_self

theorem allBlank_takeWhile (s : List Char) : AllBlank (s.takeWhile isBlank) :=
  List.all_eq_true.1 List.all_takeWhile

theorem takeWhile_append_trimLeft (s : List Char) : s.takeWhile isBlank ++ trimLeft s = s :=
  List.takeWhile_append_dropWhile

theorem takeWhile_isBlank_ne_nil (h : startsBlank s = true) : s.takeWhile isBlank ≠ [] := by
  cases s with
  | nil => cases h
  | cons c r =>
    have hc : isBlank c = true := h
    simp [hc]

theorem startsBlank_trimLeft (s : List Char) : startsBlank (trimLeft s) = false := by
  cases h : trimLeft s with
  | nil => rfl
  | cons c r => exact stopsRun_dropWhile isBlank s c (by rw [← trimLeft, h]; rfl)

variable {w r : List Char}

theorem startsBlank_word_append (hne : w ≠ []) (h : NoBlank w) (s : List Char) : startsBlank (w ++ s) = false := by
  cases w with
  | nil => exact absurd rfl hne
  | cons c w => exact h c List.mem_cons_self

theorem noBlank_word (s : List Char) : NoBlank (word s) := by
  intro c hc
  simpa using List.all_eq_true.1 List.all_takeWhile c hc

/-- A word is cut off whole where no word goes on after it. -/
theorem word_word_append (h : NoBlank w) (hr : word r = []) : word (w ++ r) = w := by
  unfold word
  rw [List.takeWhile_append_of_pos fun c hc => by simp [h c hc]]
  change w ++ word r = w
  rw [hr, List.append_nil]

theorem afterWord_word_append (h : NoBlank w) (r : List Char) : afterWord (w ++ r) = afterWord r :=
  List.dropWhile_append_of_pos fun c hc => by simp [h c hc]

theorem word_eq_nil (h : startsBlank r = true) : word r = [] := by
  cases r with
  | nil => rfl
  | cons c r =>
    have hc : isBlank c = true := h
    simp [word, hc]

theorem afterWord_eq_self (h : word r = []) : afterWord r = r := by
  have hsplit := word_append_afterWord r
  rwa [h, List.nil_append] at hsplit

/-! ## Keywords -/

/-- A way to compare characters that fits no other character to a blank. -/
def KeepsBlanks (fits : Fits) : Prop := ∀ k c, isBlank c = true → fits k c = true → isBlank k = true

theorem keepsBlanks_exactly : KeepsBlanks exactly := by
  intro k c hc hfits
  rwa [eq_of_beq hfits]

theorem keepsBlanks_anyCase : KeepsBlanks anyCase := by
  have hall : blanks.all (fun c => !c.isUpper && c != 'ſ' && c != '\u212a' && c != 'İ' && c != 'ı') = true := by decide
  intro k c hc hfits
  have hother := List.all_eq_true.1 hall c (mem_blanks hc)
  simp only [Bool.and_eq_true, Bool.not_eq_true', bne_iff_ne, ne_eq] at hother
  obtain ⟨⟨⟨⟨hupper, hs⟩, hk⟩, hcapital⟩, hdotless⟩ := hother
  simp only [anyCase, hupper, hs, hk, hcapital, hdotless, Bool.and_false, Bool.false_and, Bool.or_false, beq_iff_eq,
    beq_eq_false_iff_ne.2, ne_eq, not_false_eq_true] at hfits
  rwa [hfits]

variable {fits : Fits} {k : List Char}

/-- A keyword without blanks is found in front of a text as without the blanks after it. -/
theorem afterKeyword?_append (hfits : KeepsBlanks fits) (hk : NoBlank k) (h : AllBlank ws) :
    afterKeyword? fits k (s ++ ws) = (afterKeyword? fits k s).map (· ++ ws) := by
  induction k generalizing s with
  | nil => rfl
  | cons a k ih =>
    cases s with
    | nil =>
      cases ws with
      | nil => rfl
      | cons c ws =>
        have hunfit : fits a c = false := Bool.eq_false_iff.2 fun hfit =>
          absurd (hfits a c (h c List.mem_cons_self) hfit) (by simp [hk a List.mem_cons_self])
        simp [afterKeyword?, hunfit]
    | cons c s =>
      rw [List.cons_append, afterKeyword?, afterKeyword?, ih fun d hd => hk d (List.mem_cons_of_mem a hd)]
      split <;> rfl

theorem afterKeyword?_padded (hfits : KeepsBlanks fits) (hk : NoBlank k) (hne : k ≠ [])
    (h : AllBlank ws) : afterKeyword? fits k (padded ws s) = (afterKeyword? fits k s).map (· ++ ws) := by
  cases s with
  | nil =>
    cases k with
    | nil => exact absurd rfl hne
    | cons => rfl
  | cons c s => exact afterKeyword?_append (s := c :: s) hfits hk h

/-! ## Last occurrences -/

/-- A text can be cut at the last occurrence of a character that it has. -/
theorem exists_last_of_mem {c : Char} (h : c ∈ s) : ∃ before after, s = before ++ c :: after ∧ c ∉ after := by
  obtain ⟨⟨before, after⟩, hcut⟩ : ∃ parts, splitLast? c s = some parts :=
    Option.ne_none_iff_exists'.1 fun hnone => splitLast?_eq_none_iff.1 hnone h
  exact ⟨before, after, append_of_splitLast? hcut⟩

theorem splitLast?_append_cons {c : Char} {before after : List Char} (h : c ∉ after) :
    splitLast? c (before ++ c :: after) = some (before, after) := by
  induction before with
  | nil =>
    unfold splitLast?
    simp [splitLast?_eq_none_iff.2 h]
  | cons d before ih =>
    unfold splitLast?
    simp [ih]

/-- The last occurrence of a character that is not among those after the text. -/
theorem splitLast?_append {c : Char} (h : c ∉ ws) :
    splitLast? c (s ++ ws) = (splitLast? c s).map fun parts => (parts.1, parts.2 ++ ws) := by
  induction s with
  | nil => exact splitLast?_eq_none_iff.2 h
  | cons d r ih =>
    rw [List.cons_append, splitLast?, splitLast?, ih]
    cases splitLast? c r with
    | some parts => rfl
    | none =>
      by_cases hd : d = c <;> simp [hd]

end TestDiscovery.Text
