-- SUMMARY: Headers cut at their parts: where the header of a class or a procedure stands on its line, and its name in it.
import TestDiscovery.Proofs.Grammar.Spelling
import TestDiscovery.Proofs.Text.Keyword

/-!
# Places of headers

A line is read as a header in one way. The header of a class stands behind the blanks that the line starts with, and
that of a procedure at the first word start where there is one. From there on the line is the keyword, blanks, the name
and what follows it.

The column of the name is found by a search of its own, which may end earlier. A name has no blanks and stands behind
one. So a line that spells the name before it comes to it does so in front of the header or in the keyword.
-/

namespace TestDiscovery

namespace Text

/-- A text is cut in one way where the blanks in front of it end. -/
theorem blanks_cut_unique {ws ws' s s' : List Char} (hws : AllBlank ws) (hws' : AllBlank ws') (hs : startsBlank s = false)
    (hs' : startsBlank s' = false) (h : ws ++ s = ws' ++ s') : ws = ws' ∧ s = s' := by
  have hsame : s = s' := by
    rw [← trimLeft_eq_self hs, ← trimLeft_append_left hws, h, trimLeft_append_left hws', trimLeft_eq_self hs']
  subst hsame
  exact ⟨List.append_cancel_right h, rfl⟩

/-- A text that begins where a word can: at the start of a line, or after a blank. -/
def AtWordStart (before : List Char) : Prop := ∀ c, before.getLast? = some c → isBlank c = true

theorem AllBlank.atWordStart {before : List Char} (h : AllBlank before) : AtWordStart before :=
  fun c hc => h c (List.mem_of_getLast? hc)

theorem atWordStart_iff_foldl {before : List Char} :
    AtWordStart before ↔ before.foldl (fun _ c => isBlank c) true = true := by
  unfold AtWordStart
  rcases List.eq_nil_or_concat before with rfl | ⟨front, c, rfl⟩
  · simp
  · simp

end Text

namespace Grammar

open Text

/-! ## Headers from their keywords on -/

/-- A header as it is read: the keyword as it is spelled, blanks, the name, and what follows the name. -/
structure HeaderParts where
  keyword : List Char
  gap : List Char
  name : List Char
  after : List Char
  gap_ne : gap ≠ []
  gap_blank : AllBlank gap
  named : headedName? (name ++ after) = some name

namespace HeaderParts

/-- The header up to its name. -/
def lead (h : HeaderParts) : List Char := h.keyword ++ h.gap

def text (h : HeaderParts) : List Char := h.lead ++ (h.name ++ h.after)

/-- The column of the name on the line of the header, which `before` precedes. -/
def column (h : HeaderParts) (before : List Char) : Nat := (before ++ h.lead).length

/-- The name is spelled before it comes: in front of the header, or by the keyword. -/
def SpelledAhead (h : HeaderParts) (before : List Char) : Prop := h.name <:+: before ∨ h.name <:+: h.keyword

variable {word s name : List Char} {h h' : HeaderParts}

theorem name_ne (h : HeaderParts) : h.name ≠ [] := (prefix_word_of_headedName? h.named).1

theorem text_ne (h : HeaderParts) : h.text ≠ [] := by simp [text, h.name_ne]

theorem name_noBlank (h : HeaderParts) : NoBlank h.name :=
  fun c hc => noBlank_word _ c ((prefix_word_of_headedName? h.named).2.subset hc)

theorem startsBlank_name (h : HeaderParts) : startsBlank (h.name ++ h.after) = false :=
  startsBlank_word_append h.name_ne h.name_noBlank h.after

theorem not_mem_name {c : Char} (h : HeaderParts) (hc : isBlank c = true) : c ∉ h.name :=
  fun hmem => absurd hc (by simp [h.name_noBlank c hmem])

/-- Headers with keywords of the same length are the same if their texts are. -/
theorem eq_of_text (hkeyword : h.keyword.length = h'.keyword.length) (htext : h.text = h'.text) : h = h' := by
  unfold text lead at htext
  rw [List.append_assoc, List.append_assoc] at htext
  obtain ⟨hkey, hrest⟩ := List.append_inj htext hkeyword
  obtain ⟨hgap, hnamed⟩ := blanks_cut_unique h.gap_blank h'.gap_blank h.startsBlank_name h'.startsBlank_name hrest
  have hname : h.name = h'.name := by
    have hread := h.named
    rw [hnamed, h'.named] at hread
    exact (Option.some.inj hread).symm
  have hafter : h.after = h'.after := by
    rw [hname] at hnamed
    exact List.append_cancel_left hnamed
  cases h
  cases h'
  simp only [mk.injEq]
  exact ⟨hkey, hgap, hname, hafter⟩

end HeaderParts

/-- What is read from a header is the name among its parts. -/
theorem headerAt?_eq_some_iff {word s name : List Char} :
    headerAt? word s = some name ↔ ∃ h : HeaderParts, Spells anyCase word h.keyword ∧ s = h.text ∧ h.name = name := by
  unfold headerAt?
  constructor
  · intro hread
    split at hread
    · cases hread
    · next r hr =>
      split at hread
      · next hblank =>
        obtain ⟨keyword, hspelled, rfl⟩ := afterKeyword?_eq_some_iff.1 hr
        obtain ⟨after, hafter⟩ := prefix_of_headedName? hread
        have hsplit : r = r.takeWhile isBlank ++ (name ++ after) := by
          rw [hafter, takeWhile_append_trimLeft]
        refine ⟨⟨keyword, r.takeWhile isBlank, name, after, takeWhile_isBlank_ne_nil hblank, allBlank_takeWhile r,
          hafter ▸ hread⟩, hspelled, ?_, rfl⟩
        change keyword ++ r = keyword ++ r.takeWhile isBlank ++ (name ++ after)
        rw [List.append_assoc, ← hsplit]
      · cases hread
  · rintro ⟨h, hspelled, rfl, rfl⟩
    have hkeyword : afterKeyword? anyCase word h.text = some (h.gap ++ (h.name ++ h.after)) :=
      afterKeyword?_eq_some_iff.2 ⟨h.keyword, hspelled, by simp [HeaderParts.text, HeaderParts.lead]⟩
    rw [hkeyword]
    simp only [startsBlank_append h.gap_ne h.gap_blank, if_true]
    rw [trimLeft_append_left h.gap_blank, trimLeft_eq_self h.startsBlank_name, h.named]

/-! ## Headers on lines -/

/-- The line has a header with the keyword `word` at a word start, and `before` in front of it. -/
structure HeaderAt (word line before : List Char) (h : HeaderParts) : Prop where
  split : line = before ++ h.text
  spelled : Spells anyCase word h.keyword
  wordStart : AtWordStart before

/-- The header of a class has nothing but blanks in front of it. -/
structure ClassHeaderAt (line before : List Char) (h : HeaderParts) : Prop extends HeaderAt classWord line before h where
  blank : AllBlank before

/-- The header of a procedure is the first one on its line. -/
structure ProcedureHeaderAt (line before : List Char) (h : HeaderParts) : Prop
    extends HeaderAt procedureWord line before h where
  first : ∀ before' h', HeaderAt procedureWord line before' h' → before.length ≤ before'.length

variable {word line before before' name : List Char} {h h' : HeaderParts}

/-- There is one header behind as many characters of a line. -/
theorem HeaderAt.unique (hat : HeaderAt word line before h) (hat' : HeaderAt word line before' h')
    (hlength : before.length = before'.length) : before = before' ∧ h = h' := by
  have hkeyword : h.keyword.length = h'.keyword.length := hat.spelled.length_eq.symm.trans hat'.spelled.length_eq
  obtain ⟨hbefore, htext⟩ := List.append_inj (hat.split.symm.trans hat'.split) hlength
  exact ⟨hbefore, HeaderParts.eq_of_text hkeyword htext⟩

theorem ProcedureHeaderAt.unique (hat : ProcedureHeaderAt line before h) (hat' : ProcedureHeaderAt line before' h') :
    before = before' ∧ h = h' :=
  hat.toHeaderAt.unique hat'.toHeaderAt
    (Nat.le_antisymm (hat.first _ _ hat'.toHeaderAt) (hat'.first _ _ hat.toHeaderAt))

/-- The spelling of a keyword does not start with a blank. -/
theorem HeaderAt.startsBlank_text (hat : HeaderAt word line before h) (hne : word ≠ []) (hword : NoBlank word) :
    startsBlank h.text = false := by
  unfold HeaderParts.text HeaderParts.lead
  rw [List.append_assoc]
  exact hat.spelled.startsBlank_append keepsBlanks_anyCase hword hne _

theorem ClassHeaderAt.unique (hat : ClassHeaderAt line before h) (hat' : ClassHeaderAt line before' h') :
    before = before' ∧ h = h' := by
  have hstart := hat.startsBlank_text (by decide) (by decide)
  have hstart' := hat'.startsBlank_text (by decide) (by decide)
  obtain ⟨rfl, -⟩ := blanks_cut_unique hat.blank hat'.blank hstart hstart' (hat.split.symm.trans hat'.split)
  exact hat.toHeaderAt.unique hat'.toHeaderAt rfl

/-- A line declares a class if it has the header of one, with the name that is read. -/
theorem className?_eq_some_iff : className? line = some name ↔ ∃ before h, ClassHeaderAt line before h ∧ h.name = name := by
  unfold className?
  constructor
  · intro hread
    obtain ⟨h, hspelled, htext, hname⟩ := headerAt?_eq_some_iff.1 hread
    have hblank := allBlank_takeWhile line
    refine ⟨line.takeWhile isBlank, h, ⟨⟨?_, hspelled, hblank.atWordStart⟩, hblank⟩, hname⟩
    rw [← htext, takeWhile_append_trimLeft]
  · rintro ⟨before, h, hat, hname⟩
    rw [hat.split, trimLeft_append_left hat.blank, trimLeft_eq_self (hat.startsBlank_text (by decide) (by decide))]
    exact headerAt?_eq_some_iff.2 ⟨h, hat.spelled, rfl, hname⟩

theorem procedureAt?_eq_some_iff {rest : List Char} :
    procedureAt? (before.foldl (fun _ c => isBlank c) true) rest = some name ↔
      ∃ h, HeaderAt procedureWord (before ++ rest) before h ∧ h.name = name := by
  unfold procedureAt?
  constructor
  · intro hread
    split at hread
    · next hfresh =>
      obtain ⟨h, hspelled, rfl, hname⟩ := headerAt?_eq_some_iff.1 hread
      exact ⟨h, ⟨rfl, hspelled, atWordStart_iff_foldl.2 hfresh⟩, hname⟩
    · cases hread
  · rintro ⟨h, hat, hname⟩
    rw [if_pos (atWordStart_iff_foldl.1 hat.wordStart)]
    exact headerAt?_eq_some_iff.2 ⟨h, hat.spelled, List.append_cancel_left hat.split, hname⟩

theorem finds_procedureAt? (line : List Char) :
    Finds procedureAt? (fun _ c => isBlank c) true line (HeaderAt procedureWord line) fun _ h => h.name where
  look_iff := by
    rintro before rest name rfl
    exact procedureAt?_eq_some_iff
  inside _ h hat := ⟨h.text, hat.split, h.text_ne⟩

/-- A line declares a procedure if it has the header of one, and the first such header has the name that is read. -/
theorem procedureName?_eq_some_iff :
    procedureName? line = some name ↔ ∃ before h, ProcedureHeaderAt line before h ∧ h.name = name := by
  rw [procedureName?, procedureFrom?_eq_leftmost, (finds_procedureAt? line).leftmost_eq_some_iff]
  constructor
  · rintro ⟨before, h, hat, hfirst, hname⟩
    exact ⟨before, h, ⟨hat, hfirst⟩, hname⟩
  · rintro ⟨before, h, hat, hname⟩
    exact ⟨before, h, hat.toHeaderAt, hat.first, hname⟩

/-! ## The column of the name -/

/-- The line spells the name in front of it only where the text before the header or the keyword does. -/
theorem HeaderAt.infix_lead_iff (hat : HeaderAt word line before h) :
    h.name <:+: before ++ h.lead ↔ h.SpelledAhead before := by
  have hgap : ∀ c ∈ h.gap, c ∉ h.name := fun c hc => h.not_mem_name (h.gap_blank c hc)
  unfold HeaderParts.SpelledAhead HeaderParts.lead
  rw [← List.append_assoc, infix_append_iff_of_disjoint hgap]
  rcases List.eq_nil_or_concat before with rfl | ⟨front, c, rfl⟩
  · simp [h.name_ne]
  · have hc : c ∉ h.name := h.not_mem_name (hat.wordStart c (by simp))
    rw [List.concat_eq_append, List.append_assoc, List.singleton_append, infix_append_cons_iff hc,
      infix_append_cons_iff hc]
    simp [h.name_ne]

/-- The blanks behind the keyword of a class spell no name, and so do those in front of it. -/
theorem ClassHeaderAt.spelledAhead_iff (hat : ClassHeaderAt line before h) :
    h.SpelledAhead before ↔ h.name <:+: h.keyword := by
  refine ⟨fun hahead => hahead.resolve_left fun hbefore => ?_, .inr⟩
  obtain ⟨c, hc⟩ := List.exists_mem_of_ne_nil _ h.name_ne
  exact h.not_mem_name (hat.blank c (hbefore.subset hc)) hc

/-- A name that is not spelled ahead is found where it stands. -/
theorem HeaderAt.columnOf_name (hat : HeaderAt word line before h) (hahead : ¬ h.SpelledAhead before) :
    columnOf h.name line = h.column before := by
  have hnot : ¬ h.name <:+: before ++ h.lead := mt hat.infix_lead_iff.1 hahead
  -- The last blank before the name separates it from all that is in front of it.
  obtain ⟨gap, c, hgap⟩ := (List.eq_nil_or_concat h.gap).resolve_left h.gap_ne
  rw [List.concat_eq_append] at hgap
  have hc : c ∉ h.name := h.not_mem_name (h.gap_blank c (by simp [hgap]))
  have hfront : before ++ h.lead = before ++ (h.keyword ++ gap) ++ [c] := by simp [HeaderParts.lead, hgap]
  have hline : line = before ++ (h.keyword ++ gap) ++ c :: (h.name ++ h.after) := by
    rw [hat.split, HeaderParts.text, ← List.append_assoc, hfront]
    simp
  have hnot' : ¬ h.name <:+: before ++ (h.keyword ++ gap) := by
    rw [hfront] at hnot
    exact fun hspelled => hnot (hspelled.trans (List.prefix_append _ [c]).isInfix)
  have hcolumn : h.column before = (before ++ (h.keyword ++ gap)).length + 1 := by
    rw [HeaderParts.column, hfront, List.length_append, List.length_singleton]
  rw [columnOf, hline, indexOf?_behind hc hnot' (List.prefix_append h.name h.after), hcolumn]

/-- A name that is spelled ahead is found there. -/
theorem HeaderAt.columnOf_name_ahead (hat : HeaderAt word line before h) (hahead : h.SpelledAhead before) :
    columnOf h.name line = columnOf h.name (before ++ h.lead) ∧ columnOf h.name line < h.column before := by
  have hinfix := hat.infix_lead_iff.2 hahead
  have hsame : columnOf h.name line = columnOf h.name (before ++ h.lead) := by
    rw [hat.split, HeaderParts.text, ← List.append_assoc, columnOf, columnOf, indexOf?_append_left hinfix]
  refine ⟨hsame, ?_⟩
  obtain ⟨column, hcolumn, hbound, -⟩ := columnOf_of_infix hinfix
  have hne := List.length_pos_iff.2 h.name_ne
  rw [hsame, hcolumn]
  unfold HeaderParts.column
  omega

end Grammar

end TestDiscovery
