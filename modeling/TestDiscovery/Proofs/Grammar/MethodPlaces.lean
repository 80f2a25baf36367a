-- SUMMARY: Declarations of methods cut at their words: which run of blanks one follows, and how far it reaches.
import TestDiscovery.Proofs.Grammar.Method
import TestDiscovery.Proofs.Scan.MarkedLines
import TestDiscovery.Proofs.Text.Keyword

/-!
# Places of method declarations

A declaration is a whole run of blanks, the word `method` with blanks behind it, perhaps `public`, the word `void`, and a
name. Only the blanks before and behind `method` have to be there. Each word is followed by another one or by the name,
so there is one way to pass over them, and the name is a character and the whole run of characters that can go on.

A line declares a method if it has such a run of blanks, and the first one counts.
-/

namespace TestDiscovery.Grammar

open Text

/-! ## Words -/

/-- The word `public` in some letter case and blanks behind it, or nothing. -/
def AccessText (s : List Char) : Prop :=
  s = [] ∨ ∃ word gap, Spells anyCase publicWord word ∧ AllBlank gap ∧ s = word ++ gap

/-- What stands between the run of blanks and the name of a declaration. -/
structure MethodWords where
  keyword : List Char
  gap : List Char
  access : List Char
  result : List Char
  space : List Char
  keyword_spelled : Spells anyCase methodWord keyword
  gap_ne : gap ≠ []
  gap_blank : AllBlank gap
  access_text : AccessText access
  result_spelled : Spells anyCase voidWord result
  space_blank : AllBlank space

variable {s r : List Char}

namespace MethodWords

def text (w : MethodWords) : List Char := w.keyword ++ (w.gap ++ (w.access ++ (w.result ++ w.space)))

variable (w : MethodWords)

theorem text_append (s : List Char) :
    w.text ++ s = w.keyword ++ (w.gap ++ (w.access ++ (w.result ++ (w.space ++ s)))) := by
  simp [text]

theorem startsBlank_text (s : List Char) : startsBlank (w.text ++ s) = false := by
  rw [w.text_append]
  exact w.keyword_spelled.startsBlank_append keepsBlanks_anyCase (by decide) (by decide) _

theorem startsBlank_result (s : List Char) : startsBlank (w.result ++ s) = false :=
  w.result_spelled.startsBlank_append keepsBlanks_anyCase (by decide) (by decide) s

theorem startsBlank_access (s : List Char) : startsBlank (w.access ++ (w.result ++ s)) = false := by
  rcases w.access_text with hnil | ⟨word, gap, hword, -, haccess⟩
  · rw [hnil]
    exact w.startsBlank_result s
  · rw [haccess, List.append_assoc]
    exact hword.startsBlank_append keepsBlanks_anyCase (by decide) (by decide) _

end MethodWords

/-- No spelling of `void` can be taken for `public`. -/
theorem afterKeyword?_public_result {result : List Char} (h : Spells anyCase voidWord result) (s : List Char) :
    afterKeyword? anyCase publicWord (result ++ s) = none := by
  cases h with
  | @cons _ c _ result hfit _ =>
    have hunfit : anyCase 'p' c = false := by
      have hlower : c.toLower = 'v' := toLower_of_anyCase hfit (by decide) (by decide)
      exact anyCase_eq_false hlower (by decide) (by decide) (by decide)
    rw [List.cons_append, publicWord, afterKeyword?, hunfit]
    rfl

theorem skipPublic_access {access result : List Char} (haccess : AccessText access)
    (hresult : Spells anyCase voidWord result) (s : List Char) : skipPublic (access ++ (result ++ s)) = result ++ s := by
  have hstart : startsBlank (result ++ s) = false :=
    hresult.startsBlank_append keepsBlanks_anyCase (by decide) (by decide) s
  unfold skipPublic
  rcases haccess with rfl | ⟨word, gap, hword, hgap, rfl⟩
  · rw [List.nil_append, afterKeyword?_public_result hresult]
  · rw [List.append_assoc, afterKeyword?_eq_some_iff.2 ⟨word, hword, rfl⟩]
    exact (trimLeft_append_left hgap _).trans (trimLeft_eq_self hstart)

/-- What is passed over before a word is `public` with its blanks, or nothing. -/
theorem exists_access_of_skipPublic (s : List Char) : ∃ access, AccessText access ∧ s = access ++ skipPublic s := by
  unfold skipPublic
  split
  · next r hr =>
    obtain ⟨word, hword, rfl⟩ := afterKeyword?_eq_some_iff.1 hr
    refine ⟨word ++ r.takeWhile isBlank, .inr ⟨word, _, hword, allBlank_takeWhile r, rfl⟩, ?_⟩
    rw [List.append_assoc, takeWhile_append_trimLeft]
  · exact ⟨[], .inl rfl, rfl⟩

/-- The words are passed over in one way. -/
theorem afterMethodWords?_eq_some_iff :
    afterMethodWords? s = some r ↔ startsBlank r = false ∧ ∃ w : MethodWords, s = w.text ++ r := by
  unfold afterMethodWords?
  constructor
  · intro h
    split at h
    · cases h
    · next rest hkeyword =>
      split at h
      · next hblank =>
        obtain ⟨keyword, hspelled, rfl⟩ := afterKeyword?_eq_some_iff.1 hkeyword
        obtain ⟨after, hresult, rfl⟩ := Option.map_eq_some_iff.1 h
        obtain ⟨result, hvoid, hafter⟩ := afterKeyword?_eq_some_iff.1 hresult
        obtain ⟨access, haccess, hskip⟩ := exists_access_of_skipPublic (trimLeft rest)
        refine ⟨startsBlank_trimLeft after, ⟨keyword, rest.takeWhile isBlank, access, result, after.takeWhile isBlank,
          hspelled, takeWhile_isBlank_ne_nil hblank, allBlank_takeWhile rest, haccess, hvoid, allBlank_takeWhile after⟩, ?_⟩
        rw [MethodWords.text_append]
        simp only
        rw [takeWhile_append_trimLeft, ← hafter, ← hskip, takeWhile_append_trimLeft]
      · cases h
  · rintro ⟨hr, w, rfl⟩
    rw [afterKeyword?_eq_some_iff.2 ⟨w.keyword, w.keyword_spelled, w.text_append r⟩]
    simp only [startsBlank_append w.gap_ne w.gap_blank, if_true]
    rw [trimLeft_append_left w.gap_blank, trimLeft_eq_self (w.startsBlank_access _),
      skipPublic_access w.access_text w.result_spelled, afterKeyword?_eq_some_iff.2 ⟨w.result, w.result_spelled, rfl⟩,
      Option.map_some, trimLeft_append_left w.space_blank, trimLeft_eq_self hr]

/-! ## Declarations -/

/-- The declaration of a method from its run of blanks to the end of its name. -/
structure MethodParts where
  run : List Char
  words : MethodWords
  first : Char
  more : List Char
  run_ne : run ≠ []
  run_blank : AllBlank run
  first_noBlank : isBlank first = false
  more_ne : more ≠ []
  more_continues : ∀ c ∈ more, continuesName c = true

namespace MethodParts

def name (m : MethodParts) : List Char := m.first :: m.more

def text (m : MethodParts) : List Char := m.run ++ (m.words.text ++ m.name)

theorem text_append_ne (m : MethodParts) (s : List Char) : m.text ++ s ≠ [] := by simp [text, name]

theorem startsBlank_text (m : MethodParts) (s : List Char) : startsBlank (m.text ++ s) = true := by
  unfold text
  rw [List.append_assoc]
  exact startsBlank_append m.run_ne m.run_blank _

end MethodParts

variable {line before after name : List Char} {header : MethodHeader}

/-- The name at the front of a text is a character and the whole run behind it. -/
theorem methodName?_eq_some_iff : methodName? s = some name ↔
    ∃ first more after, s = first :: (more ++ after) ∧ name = first :: more ∧ more ≠ [] ∧
      (∀ c ∈ more, continuesName c = true) ∧ StopsRun continuesName after := by
  cases s with
  | nil => simp [methodName?]
  | cons c r =>
    rw [methodName?]
    constructor
    · intro h
      split at h
      · cases h
      · next hmore =>
        obtain rfl := Option.some.inj h
        exact ⟨c, r.takeWhile continuesName, r.dropWhile continuesName, by rw [List.takeWhile_append_dropWhile], rfl,
          fun hnil => hmore (List.isEmpty_iff.2 hnil), fun d hd => List.mem_takeWhile_imp hd, stopsRun_dropWhile _ r⟩
    · rintro ⟨first, more, after, hsplit, rfl, hne, hmore, hafter⟩
      obtain ⟨rfl, rfl⟩ := List.cons.inj hsplit
      rw [takeWhile_append_of_stopsRun hmore hafter]
      simp [hne]

/-- What is read behind a run of blanks is the declaration that is written there. -/
theorem methodAt?_eq_some_iff (hs : startsBlank s = true) : methodAt? s = some header ↔
    ∃ (m : MethodParts) (after : List Char), s = m.text ++ after ∧ StopsRun continuesName after ∧
      header = ⟨m.name, m.text.length⟩ := by
  unfold methodAt?
  constructor
  · intro h
    split at h
    · cases h
    · next r hwords =>
      obtain ⟨name, hname, rfl⟩ := Option.map_eq_some_iff.1 h
      obtain ⟨hr, w, hsplit⟩ := afterMethodWords?_eq_some_iff.1 hwords
      obtain ⟨first, more, after, rfl, rfl, hne, hmore, hafter⟩ := methodName?_eq_some_iff.1 hname
      have hline : s = s.takeWhile isBlank ++ (w.text ++ (first :: (more ++ after))) := by
        rw [← hsplit, takeWhile_append_trimLeft]
      refine ⟨⟨s.takeWhile isBlank, w, first, more, takeWhile_isBlank_ne_nil hs, allBlank_takeWhile s, hr, hne, hmore⟩,
        after, ?_, hafter, ?_⟩
      · simpa [MethodParts.text, MethodParts.name] using hline
      · have hlength := congrArg List.length hline
        simp only [List.length_append, List.length_cons] at hlength
        simp only [MethodParts.text, MethodParts.name, MethodHeader.mk.injEq, true_and, List.length_append,
          List.length_cons]
        omega
  · rintro ⟨m, after, rfl, hafter, rfl⟩
    have hsplit : m.text ++ after = m.run ++ (m.words.text ++ (m.first :: (m.more ++ after))) := by
      simp [MethodParts.text, MethodParts.name]
    have hname : methodName? (m.first :: (m.more ++ after)) = some m.name :=
      methodName?_eq_some_iff.2 ⟨m.first, m.more, after, rfl, rfl, m.more_ne, m.more_continues, hafter⟩
    have hwords : afterMethodWords? (m.words.text ++ (m.first :: (m.more ++ after))) =
        some (m.first :: (m.more ++ after)) :=
      afterMethodWords?_eq_some_iff.2 ⟨m.first_noBlank, m.words, rfl⟩
    rw [hsplit, trimLeft_append_left m.run_blank, trimLeft_eq_self (m.words.startsBlank_text _), hwords]
    simp only [hname, Option.map_some, Option.some.injEq, MethodHeader.mk.injEq, true_and]
    simp only [MethodParts.text, MethodParts.name, List.length_append, List.length_cons]
    omega

/-! ## Lines -/

/-- The line has a declaration behind `before`, with the whole run of blanks and the whole name. -/
structure MethodPartsAt (line before : List Char) (m : MethodParts) (after : List Char) : Prop where
  split : line = before ++ (m.text ++ after)
  whole_run : ∀ c, before.getLast? = some c → isBlank c = false
  whole_name : StopsRun continuesName after

/-- The first declaration of a line. -/
structure FirstMethodParts (line before : List Char) (m : MethodParts) (after : List Char) : Prop
    extends MethodPartsAt line before m after where
  first : ∀ before' m' after', MethodPartsAt line before' m' after' → before.length ≤ before'.length

theorem afterBlank_eq_false_iff :
    afterBlank false before = false ↔ ∀ c, before.getLast? = some c → isBlank c = false := by
  unfold afterBlank
  cases before.getLast? <;> simp

theorem methodAtRun?_eq_some_iff : methodAtRun? (afterBlank false before) r = some header ↔
    ∃ m after, MethodPartsAt (before ++ r) before m after ∧ header = ⟨m.name, m.text.length⟩ := by
  unfold methodAtRun?
  constructor
  · intro h
    split at h
    · next hrun =>
      simp only [Bool.and_eq_true, Bool.not_eq_true'] at hrun
      obtain ⟨m, after, rfl, hafter, rfl⟩ := (methodAt?_eq_some_iff hrun.1).1 h
      exact ⟨m, after, ⟨rfl, afterBlank_eq_false_iff.1 hrun.2, hafter⟩, rfl⟩
    · cases h
  · rintro ⟨m, after, hat, rfl⟩
    obtain rfl := List.append_cancel_left hat.split
    have hstart := m.startsBlank_text after
    rw [hstart, afterBlank_eq_false_iff.2 hat.whole_run]
    exact (methodAt?_eq_some_iff hstart).2 ⟨m, after, rfl, hat.whole_name, rfl⟩

theorem finds_methodAtRun? (line : List Char) :
    Finds methodAtRun? (fun _ c => isBlank c) false line
      (fun before (place : MethodParts × List Char) => MethodPartsAt line before place.1 place.2)
      fun _ place => ⟨place.1.name, place.1.text.length⟩ where
  look_iff := by
    rintro before rest header rfl
    rw [afterBlank_eq_foldl, methodAtRun?_eq_some_iff]
    constructor
    · rintro ⟨m, after, hat, rfl⟩
      exact ⟨(m, after), hat, rfl⟩
    · rintro ⟨⟨m, after⟩, hat, rfl⟩
      exact ⟨m, after, hat, rfl⟩
  inside _ place hat := ⟨place.1.text ++ place.2, hat.split, place.1.text_append_ne place.2⟩

/-- What is read from a line is its first declaration. -/
theorem method?_eq_some_iff : method? line = some header ↔
    ∃ before m after, FirstMethodParts line before m after ∧ header = ⟨m.name, m.text.length⟩ := by
  rw [method?, methodFrom?_eq_leftmost, (finds_methodAtRun? line).leftmost_eq_some_iff]
  constructor
  · rintro ⟨before, ⟨m, after⟩, hat, hfirst, rfl⟩
    exact ⟨before, m, after, ⟨hat, fun before' m' after' => hfirst before' (m', after')⟩, rfl⟩
  · rintro ⟨before, m, after, hfirst, rfl⟩
    exact ⟨before, (m, after), hfirst.toMethodPartsAt, fun before' place => hfirst.first before' place.1 place.2, rfl⟩

/-- A declaration is never missed, whatever stands before it. -/
theorem MethodPartsAt.exists_method? {m : MethodParts} (hat : MethodPartsAt line before m after) :
    ∃ header, method? line = some header := by
  rw [method?, methodFrom?_eq_leftmost]
  exact (finds_methodAtRun? line).exists_leftmost (p := (m, after)) hat

/-- The keyword of a declaration does not start its line. -/
theorem MethodPartsAt.exists_keyword {m : MethodParts} (hat : MethodPartsAt line before m after) :
    ∃ front keyword rest, Spells anyCase methodWord keyword ∧ line = front ++ (keyword ++ rest) ∧ front ≠ [] := by
  have hsplit : line = before ++ m.run ++ (m.words.keyword ++
      (m.words.gap ++ (m.words.access ++ (m.words.result ++ (m.words.space ++ (m.name ++ after)))))) := by
    rw [hat.split, MethodParts.text]
    simp [MethodWords.text]
  exact ⟨_, m.words.keyword, _, m.words.keyword_spelled, hsplit, fun hnil => m.run_ne (List.append_eq_nil_iff.1 hnil).2⟩

/-- A line declares a method if it has a whole run of blanks with the words of a declaration and a name behind it. The
first such run counts: the name is what stands there, and the range that is reported ends as many columns from the start
of the line as there are characters from the run to the end of the name. Blanks have to stand before the keyword, so a
line with its only keyword at its start declares nothing. -/
theorem method?_exact (line : List Char) :
    ((method? line).isSome = true ↔ ∃ before m after, MethodPartsAt line before m after) ∧
    (∀ header, method? line = some header ↔
      ∃ before m after, FirstMethodParts line before m after ∧ header = ⟨m.name, m.text.length⟩) ∧
    (∀ className n before m after, FirstMethodParts line before m after → Scan.methodOn className n line =
      some (.method (.onLine n 0 m.text.length) (String.ofList className) (String.ofList m.name))) ∧
    ((∀ before keyword after, Spells anyCase methodWord keyword → line = before ++ (keyword ++ after) → before = []) →
      method? line = none) := by
  refine ⟨?_, fun header => method?_eq_some_iff, ?_, ?_⟩
  · rw [Option.isSome_iff_exists]
    constructor
    · rintro ⟨header, hheader⟩
      obtain ⟨before, m, after, hfirst, -⟩ := method?_eq_some_iff.1 hheader
      exact ⟨before, m, after, hfirst.toMethodPartsAt⟩
    · rintro ⟨before, m, after, hat⟩
      exact hat.exists_method?
  · intro className n before m after hfirst
    rw [Scan.methodOn, method?_eq_some_iff.2 ⟨before, m, after, hfirst, rfl⟩]
    rfl
  · intro honly
    rw [Option.eq_none_iff_forall_ne_some]
    intro header hheader
    obtain ⟨before, m, after, hfirst, -⟩ := method?_eq_some_iff.1 hheader
    obtain ⟨front, keyword, rest, hspelled, hsplit, hne⟩ := hfirst.exists_keyword
    exact hne (honly front keyword rest hspelled hsplit)

/-- Blanks are needed before the keyword and not between the other words, and a name may begin with a parenthesis. -/
example : method? "method void ab(".toList = none ∧
    method? "  method publicvoid(ab(".toList = some ⟨['(', 'a', 'b'], 22⟩ := by
  decide

end TestDiscovery.Grammar
