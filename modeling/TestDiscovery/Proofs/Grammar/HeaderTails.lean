-- SUMMARY: Headers by what stands behind their keyword: a whole run of characters and the colon that makes it a name.
import TestDiscovery.Proofs.Grammar.HeaderPlaces

/-!
# What makes a header

Behind the keyword of a header and its blanks stands a run of characters up to the next blank. It declares a name in two
ways: a colon follows it behind blanks, or it has a colon in it that is not its first character. In the first case the
whole run is the name, colons included, and in the second what stands before its last colon. A run that is neither makes
no header, and a procedure is then looked for behind it.
-/

namespace TestDiscovery.Grammar

open Text

/-! ## Runs and their names -/

/-- What stands behind a keyword and its blanks: a run of characters that are no blanks, up to a blank or the end of the
line, and the rest of the line. -/
structure HeaderTail where
  run : List Char
  after : List Char
  run_ne : run ≠ []
  run_noBlank : NoBlank run
  whole : StopsRun (fun c => !isBlank c) after

namespace HeaderTail

def text (t : HeaderTail) : List Char := t.run ++ t.after

/-- A colon follows the run behind blanks. -/
def ColonFollows (t : HeaderTail) : Prop := ∃ gap rest, gap ≠ [] ∧ AllBlank gap ∧ t.after = gap ++ ':' :: rest

/-- The run has a colon behind its first character. -/
def ColonInside (t : HeaderTail) : Prop := ∃ i, 1 ≤ i ∧ t.run[i]? = some ':'

/-- The run makes a header. -/
def Fits (t : HeaderTail) : Prop := t.ColonFollows ∨ t.ColonInside

/-- What the run declares. A colon behind it counts before one in it. -/
inductive Declares (t : HeaderTail) : List Char → Prop
  | whole (hfollows : t.ColonFollows) : Declares t t.run
  | front {name rest : List Char} (hnot : ¬ t.ColonFollows) (hinside : t.ColonInside) (hrun : t.run = name ++ ':' :: rest)
      (hlast : ':' ∉ rest) : Declares t name

variable {t : HeaderTail} {name s : List Char}

theorem word_text (t : HeaderTail) : word t.text = t.run :=
  takeWhile_append_of_stopsRun (fun c hc => by simp [t.run_noBlank c hc]) t.whole

theorem afterWord_text (t : HeaderTail) : afterWord t.text = t.after :=
  dropWhile_append_of_stopsRun (fun c hc => by simp [t.run_noBlank c hc]) t.whole

/-- A text that starts with no blank is a run and what follows it. -/
theorem exists_text_eq (hne : s ≠ []) (hs : startsBlank s = false) : ∃ t : HeaderTail, t.text = s := by
  refine ⟨⟨word s, afterWord s, ?_, noBlank_word s, stopsRun_dropWhile _ s⟩, word_append_afterWord s⟩
  cases s with
  | nil => exact absurd rfl hne
  | cons c r =>
    have hc : isBlank c = false := hs
    simp [word, hc]

/-- A colon comes first behind the blanks after the run only if there are such blanks, since no colon follows a run. -/
theorem colonFollows_iff : t.ColonFollows ↔ (trimLeft t.after).head? = some ':' := by
  constructor
  · rintro ⟨gap, rest, -, hgap, hafter⟩
    rw [hafter, trimLeft_append_left hgap]
    rfl
  · intro hhead
    obtain ⟨rest, hrest⟩ := List.head?_eq_some_iff.1 hhead
    have hsplit : t.after = t.after.takeWhile isBlank ++ ':' :: rest := by
      rw [← hrest, takeWhile_append_trimLeft]
    refine ⟨t.after.takeWhile isBlank, rest, fun hnil => ?_, allBlank_takeWhile t.after, hsplit⟩
    rw [hnil, List.nil_append] at hsplit
    exact absurd (t.whole ':' (by rw [hsplit]; rfl)) (by decide)

/-- The last colon of a run has something before it if there is a colon behind the first character. -/
theorem colonInside_iff {rest : List Char} (hrun : t.run = name ++ ':' :: rest) (hlast : ':' ∉ rest) :
    t.ColonInside ↔ name ≠ [] := by
  constructor
  · rintro ⟨i, hi, hcolon⟩ rfl
    rw [hrun, List.nil_append] at hcolon
    obtain ⟨i, rfl⟩ : ∃ k, i = k + 1 := ⟨i - 1, by omega⟩
    exact hlast (List.mem_of_getElem? hcolon)
  · intro hne
    refine ⟨name.length, List.length_pos_iff.2 hne, ?_⟩
    rw [hrun]
    simp

/-- What is read behind a keyword and its blanks is the name that the run there declares. -/
theorem headedName?_text : headedName? t.text = some name ↔ t.Declares name := by
  have hrun : t.run.isEmpty = false := by simp [t.run_ne]
  unfold headedName?
  simp only [t.word_text, t.afterWord_text, hrun, Bool.false_eq_true, if_false]
  constructor
  · intro h
    split at h
    · next hhead =>
      obtain rfl := Option.some.inj h
      exact .whole (colonFollows_iff.2 hhead)
    · next hhead =>
      split at h
      · next front rest hcut =>
        obtain ⟨hsplit, hlast⟩ := append_of_splitLast? hcut
        split at h
        · cases h
        · next hfront =>
          obtain rfl := Option.some.inj h
          have hne : front ≠ [] := fun hnil => hfront (List.isEmpty_iff.2 hnil)
          exact .front (mt colonFollows_iff.1 hhead) ((colonInside_iff hsplit hlast).2 hne) hsplit hlast
      · cases h
  · intro h
    cases h with
    | whole hfollows => rw [if_pos (colonFollows_iff.1 hfollows)]
    | @front name rest hnot hinside hsplit hlast =>
      have hne : name ≠ [] := (colonInside_iff hsplit hlast).1 hinside
      have hcut : splitLast? ':' t.run = some (name, rest) := by rw [hsplit, splitLast?_append_cons hlast]
      rw [if_neg (mt colonFollows_iff.2 hnot), hcut]
      simp [hne]

/-- A run that a colon follows, or that has one inside, declares a name, and no other run does. -/
theorem exists_declares_iff : (∃ name, t.Declares name) ↔ t.Fits := by
  constructor
  · rintro ⟨name, hdeclares⟩
    cases hdeclares with
    | whole hfollows => exact .inl hfollows
    | front hnot hinside => exact .inr hinside
  · intro h
    by_cases hfollows : t.ColonFollows
    · exact ⟨t.run, .whole hfollows⟩
    · have hinside : t.ColonInside := h.resolve_left hfollows
      have ⟨i, _, hcolon⟩ := hinside
      obtain ⟨front, rest, hsplit, hlast⟩ := exists_last_of_mem (List.mem_of_getElem? hcolon)
      exact ⟨front, .front hfollows hinside hsplit hlast⟩

end HeaderTail

/-! ## Cuts -/

/-- A text starts with a name that has no blanks, perhaps blanks, and a colon. -/
structure NameCut (s name : List Char) : Prop where
  name_ne : name ≠ []
  name_noBlank : NoBlank name
  colon : ∃ gap rest, AllBlank gap ∧ s = name ++ (gap ++ ':' :: rest)

/-- Of the cuts of a text, that with the longest name. -/
structure LongestNameCut (s name : List Char) : Prop extends NameCut s name where
  longest : ∀ name', NameCut s name' → name'.length ≤ name.length

namespace HeaderTail

variable {t : HeaderTail} {name : List Char}

/-- The text of a run can be cut behind the whole run, if a colon follows it, and before each colon inside it. -/
theorem nameCut_iff : NameCut t.text name ↔
    t.ColonFollows ∧ name = t.run ∨ name ≠ [] ∧ ∃ rest, t.run = name ++ ':' :: rest := by
  constructor
  · rintro ⟨hne, hname, gap, rest, hgap, hsplit⟩
    rcases List.append_eq_append_iff.1 hsplit with ⟨more, rfl, hafter⟩ | ⟨more, hrun, hafter⟩
    · cases more with
      | nil =>
        rw [List.nil_append] at hafter
        refine .inl ⟨⟨gap, rest, fun hnil => ?_, hgap, hafter⟩, by simp⟩
        rw [hnil, List.nil_append] at hafter
        exact absurd (t.whole ':' (by rw [hafter]; rfl)) (by decide)
      | cons c more =>
        -- The name ends no later than the run: what follows the run is no part of a word.
        have hc : isBlank c = true := by simpa using t.whole c (by rw [hafter]; rfl)
        exact absurd hc (by simp [hname c (by simp)])
    · cases more with
      | nil =>
        rw [List.nil_append] at hafter
        refine .inl ⟨⟨gap, rest, fun hnil => ?_, hgap, hafter.symm⟩, by simp [hrun]⟩
        rw [hnil, List.nil_append] at hafter
        exact absurd (t.whole ':' (by rw [← hafter]; rfl)) (by decide)
      | cons c more =>
        have hc : isBlank c = false := t.run_noBlank c (by simp [hrun])
        cases gap with
        | nil =>
          cases hafter
          exact .inr ⟨hne, more, hrun⟩
        | cons g gap =>
          obtain rfl : g = c := (List.cons.inj hafter).1
          exact absurd (hgap g List.mem_cons_self) (by simp [hc])
  · rintro (⟨⟨gap, rest, -, hgap, hafter⟩, rfl⟩ | ⟨hne, rest, hrun⟩)
    · exact ⟨t.run_ne, t.run_noBlank, gap, rest, hgap, by rw [text, hafter]⟩
    · refine ⟨hne, fun c hc => t.run_noBlank c (by simp [hrun, hc]), [], rest ++ t.after, by simp [AllBlank], ?_⟩
      rw [text, hrun]
      simp

/-- What a run declares makes the longest cut of its text. -/
theorem Declares.longestNameCut (h : t.Declares name) : LongestNameCut t.text name := by
  cases h with
  | whole hfollows =>
    refine ⟨nameCut_iff.2 (.inl ⟨hfollows, rfl⟩), fun name' hcut => ?_⟩
    rcases nameCut_iff.1 hcut with ⟨-, rfl⟩ | ⟨-, rest, hrun⟩
    · exact le_rfl
    · simp [hrun]
  | @front name rest hnot hinside hrun hlast =>
    refine ⟨nameCut_iff.2 (.inr ⟨(colonInside_iff hrun hlast).1 hinside, rest, hrun⟩), fun name' hcut => ?_⟩
    rcases nameCut_iff.1 hcut with ⟨hfollows, -⟩ | ⟨-, rest', hrun'⟩
    · exact absurd hfollows hnot
    · -- A longer name would end at a colon behind the last one.
      by_contra hlonger
      have hfront : name ++ [':'] <+: t.run := ⟨rest, by simp [hrun]⟩
      have hfront' : name' <+: t.run := ⟨':' :: rest', hrun'.symm⟩
      have hlength : (name ++ [':']).length ≤ name'.length := by
        simp only [List.length_append, List.length_singleton]
        omega
      obtain ⟨more, rfl⟩ := List.prefix_of_prefix_length_le hfront hfront' hlength
      have hrest : rest = more ++ ':' :: rest' := by
        have hsame := hrun.symm.trans hrun'
        simpa using hsame
      exact hlast (by simp [hrest])

end HeaderTail

theorem NameCut.starts {s name : List Char} (h : NameCut s name) : name <+: s := by
  obtain ⟨gap, rest, -, hsplit⟩ := h.colon
  exact ⟨_, hsplit.symm⟩

/-- A text has one longest cut. -/
theorem LongestNameCut.unique {s name name' : List Char} (h : LongestNameCut s name) (h' : LongestNameCut s name') :
    name = name' := by
  have hlength : name.length = name'.length :=
    Nat.le_antisymm (h'.longest name h.toNameCut) (h.longest name' h'.toNameCut)
  exact (List.prefix_of_prefix_length_le h.starts h'.starts hlength.le).eq_of_length hlength

namespace HeaderTail

variable {t : HeaderTail} {name : List Char}

theorem declares_iff_longestNameCut : t.Declares name ↔ LongestNameCut t.text name := by
  refine ⟨Declares.longestNameCut, fun hlongest => ?_⟩
  have hfits : t.Fits := by
    rcases nameCut_iff.1 hlongest.toNameCut with ⟨hfollows, -⟩ | ⟨hne, rest, hrun⟩
    · exact .inl hfollows
    · refine .inr ⟨name.length, List.length_pos_iff.2 hne, ?_⟩
      simp [hrun]
  obtain ⟨declared, hdeclares⟩ := exists_declares_iff.2 hfits
  rwa [← hdeclares.longestNameCut.unique hlongest]

end HeaderTail

/-- The name that a text starts with is that of the longest of its cuts into a name, blanks and a colon. -/
theorem headedName?_eq_some_iff {s name : List Char} : headedName? s = some name ↔ LongestNameCut s name := by
  have hruns (hne : name ≠ []) (hname : NoBlank name) (hstarts : name <+: s) : ∃ t : HeaderTail, t.text = s := by
    obtain ⟨after, rfl⟩ := hstarts
    exact HeaderTail.exists_text_eq (List.append_ne_nil_of_left_ne_nil hne after) (startsBlank_word_append hne hname after)
  have hiff (h : ∃ t : HeaderTail, t.text = s) : headedName? s = some name ↔ LongestNameCut s name := by
    obtain ⟨t, rfl⟩ := h
    exact HeaderTail.headedName?_text.trans HeaderTail.declares_iff_longestNameCut
  constructor
  · intro h
    obtain ⟨hne, hword⟩ := prefix_word_of_headedName? h
    exact (hiff (hruns hne (fun c hc => noBlank_word s c (hword.subset hc)) (prefix_of_headedName? h))).1 h
  · intro h
    exact (hiff (hruns h.name_ne h.name_noBlank h.starts)).2 h

/-! ## Lines -/

/-- The keyword `word` stands at a word start behind `before`, and the run `t` behind it and its blanks. -/
structure TailAt (word line before : List Char) (t : HeaderTail) : Prop where
  wordStart : AtWordStart before
  keyword : ∃ keyword gap, Spells anyCase word keyword ∧ gap ≠ [] ∧ AllBlank gap ∧
    line = before ++ (keyword ++ (gap ++ t.text))

variable {word line before name : List Char} {t : HeaderTail}

/-- A header is a keyword with a run behind it that declares a name. -/
theorem exists_headerAt_iff :
    (∃ h, HeaderAt word line before h ∧ h.name = name) ↔ ∃ t, TailAt word line before t ∧ t.Declares name := by
  constructor
  · rintro ⟨h, hat, rfl⟩
    obtain ⟨t, ht⟩ := HeaderTail.exists_text_eq (List.append_ne_nil_of_left_ne_nil h.name_ne h.after) h.startsBlank_name
    refine ⟨t, ⟨hat.wordStart, h.keyword, h.gap, hat.spelled, h.gap_ne, h.gap_blank, ?_⟩, ?_⟩
    · rw [hat.split, ht]
      simp [HeaderParts.text, HeaderParts.lead]
    · rw [← HeaderTail.headedName?_text, ht]
      exact h.named
  · rintro ⟨t, ⟨hstart, keyword, gap, hspelled, hgap_ne, hgap, hsplit⟩, hdeclares⟩
    have hnamed := HeaderTail.headedName?_text.2 hdeclares
    obtain ⟨after, hafter⟩ := prefix_of_headedName? hnamed
    refine ⟨⟨keyword, gap, name, after, hgap_ne, hgap, hafter ▸ hnamed⟩, ⟨?_, hspelled, hstart⟩, rfl⟩
    simp [hsplit, HeaderParts.text, HeaderParts.lead, ← hafter]

/-- A line declares a class if it is blanks, the keyword, blanks and a run that declares the name. -/
theorem className?_eq_some_iff_declares : className? line = some name ↔
    ∃ before t, AllBlank before ∧ TailAt classWord line before t ∧ t.Declares name := by
  rw [className?_eq_some_iff]
  constructor
  · rintro ⟨before, h, hat, hname⟩
    obtain ⟨t, htail, hdeclares⟩ := exists_headerAt_iff.1 ⟨h, hat.toHeaderAt, hname⟩
    exact ⟨before, t, hat.blank, htail, hdeclares⟩
  · rintro ⟨before, t, hblank, htail, hdeclares⟩
    obtain ⟨h, hat, hname⟩ := exists_headerAt_iff.2 ⟨t, htail, hdeclares⟩
    exact ⟨before, h, ⟨hat, hblank⟩, hname⟩

/-- A keyword with a run that makes a header, and none such before it. -/
structure FirstTailAt (word line before : List Char) (t : HeaderTail) : Prop extends TailAt word line before t where
  fits : t.Fits
  first : ∀ before' t', TailAt word line before' t' → t'.Fits → before.length ≤ before'.length

/-- A line declares a procedure by the first place with its keyword and a run that makes a header. -/
theorem procedureName?_eq_some_iff_declares : procedureName? line = some name ↔
    ∃ before t, FirstTailAt procedureWord line before t ∧ t.Declares name := by
  rw [procedureName?_eq_some_iff]
  constructor
  · rintro ⟨before, h, hat, hname⟩
    obtain ⟨t, htail, hdeclares⟩ := exists_headerAt_iff.1 ⟨h, hat.toHeaderAt, hname⟩
    refine ⟨before, t, ⟨htail, HeaderTail.exists_declares_iff.1 ⟨name, hdeclares⟩, ?_⟩, hdeclares⟩
    intro before' t' htail' hfits'
    obtain ⟨name', hdeclares'⟩ := HeaderTail.exists_declares_iff.2 hfits'
    obtain ⟨h', hat', -⟩ := exists_headerAt_iff.2 ⟨t', htail', hdeclares'⟩
    exact hat.first before' h' hat'
  · rintro ⟨before, t, htail, hdeclares⟩
    obtain ⟨h, hat, hname⟩ := exists_headerAt_iff.2 ⟨t, htail.toTailAt, hdeclares⟩
    refine ⟨before, h, ⟨hat, fun before' h' hat' => ?_⟩, hname⟩
    obtain ⟨t', htail', hdeclares'⟩ := exists_headerAt_iff.1 ⟨h', hat', rfl⟩
    exact htail.first before' t' htail' (HeaderTail.exists_declares_iff.1 ⟨h'.name, hdeclares'⟩)

/-- A header of a procedure is never missed, whatever stands before it. -/
theorem exists_procedureName?_of_tailAt (htail : TailAt procedureWord line before t) (hfits : t.Fits) :
    ∃ name, procedureName? line = some name := by
  obtain ⟨name, hdeclares⟩ := HeaderTail.exists_declares_iff.2 hfits
  obtain ⟨h, hat, -⟩ := exists_headerAt_iff.2 ⟨t, htail, hdeclares⟩
  rw [procedureName?, procedureFrom?_eq_leftmost]
  exact (finds_procedureAt? line).exists_leftmost hat

/-- A line declares a class if it is blanks, the keyword, blanks, and a run that fits, and a procedure if there is a place
at a word start with the keyword of procedures, blanks, and a run that fits. The first such place counts, and the name is
what the run there declares: of all names that blanks and a colon can follow, the longest one. -/
theorem headers_exact (line : List Char) :
    ((className? line).isSome = true ↔ ∃ before t, AllBlank before ∧ TailAt classWord line before t ∧ t.Fits) ∧
    (∀ name, className? line = some name ↔
      ∃ before t, AllBlank before ∧ TailAt classWord line before t ∧ t.Declares name) ∧
    ((procedureName? line).isSome = true ↔ ∃ before t, TailAt procedureWord line before t ∧ t.Fits) ∧
    (∀ name, procedureName? line = some name ↔
      ∃ before t, FirstTailAt procedureWord line before t ∧ t.Declares name) ∧
    ∀ (t : HeaderTail) name, t.Declares name ↔ LongestNameCut t.text name := by
  refine ⟨?_, fun name => className?_eq_some_iff_declares, ?_, fun name => procedureName?_eq_some_iff_declares,
    fun t name => HeaderTail.declares_iff_longestNameCut⟩
  · rw [Option.isSome_iff_exists]
    constructor
    · rintro ⟨name, hname⟩
      obtain ⟨before, t, hblank, htail, hdeclares⟩ := className?_eq_some_iff_declares.1 hname
      exact ⟨before, t, hblank, htail, HeaderTail.exists_declares_iff.1 ⟨name, hdeclares⟩⟩
    · rintro ⟨before, t, hblank, htail, hfits⟩
      obtain ⟨name, hdeclares⟩ := HeaderTail.exists_declares_iff.2 hfits
      exact ⟨name, className?_eq_some_iff_declares.2 ⟨before, t, hblank, htail, hdeclares⟩⟩
  · rw [Option.isSome_iff_exists]
    constructor
    · rintro ⟨name, hname⟩
      obtain ⟨before, t, hfirst, -⟩ := procedureName?_eq_some_iff_declares.1 hname
      exact ⟨before, t, hfirst.toTailAt, hfirst.fits⟩
    · rintro ⟨before, t, htail, hfits⟩
      exact exists_procedureName?_of_tailAt htail hfits

/-- A colon behind the run counts before those in it, and a keyword without a colon before one that has it. -/
example : className? "class a:b :".toList = some ['a', ':', 'b'] ∧
    className? "class a:b:c".toList = some ['a', ':', 'b'] ∧
    procedureName? "procedure a; procedure b:".toList = some ['b'] := by
  decide

end TestDiscovery.Grammar
