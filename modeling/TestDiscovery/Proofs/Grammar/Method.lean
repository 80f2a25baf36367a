-- SUMMARY: The method that a line declares: which run of blanks it follows, and how far the declaration reaches.
import TestDiscovery.Grammar.Method
import TestDiscovery.Proofs.Grammar.Spelling
import TestDiscovery.Proofs.Text.Blank

/-!
# Method declarations

A declaration is looked for at each run of blanks, from the left. The one that is found stands at the first run that it
fits. It starts with the blanks and ends with the name, so its length is at most that of the line, and if nothing but
blanks stands before its keyword it fills the line up to the end of the name.
-/

namespace TestDiscovery.Grammar

variable {s r line name : List Char} {header : MethodHeader}

/-! ## A declaration at the front of a text -/

theorem prefix_of_methodName? (h : methodName? s = some name) : name <+: s := by
  cases s with
  | nil => cases h
  | cons c r =>
    simp only [methodName?] at h
    split at h
    · cases h
    · obtain rfl := Option.some.inj h
      exact List.cons_prefix_cons.2 ⟨rfl, List.takeWhile_prefix _⟩

theorem suffix_skipPublic (s : List Char) : skipPublic s <:+ s := by
  unfold skipPublic
  split
  · next r hword => exact (Text.suffix_trimLeft r).trans (Text.suffix_of_afterKeyword? hword)
  · exact List.suffix_rfl

theorem suffix_of_afterMethodWords? (h : afterMethodWords? s = some r) : r <:+ s := by
  unfold afterMethodWords? at h
  split at h
  · cases h
  · next rest hword =>
    split at h
    · obtain ⟨name, hvoid, rfl⟩ := Option.map_eq_some_iff.1 h
      have hpublic : skipPublic (Text.trimLeft rest) <:+ s :=
        ((suffix_skipPublic _).trans (Text.suffix_trimLeft rest)).trans (Text.suffix_of_afterKeyword? hword)
      exact ((Text.suffix_trimLeft name).trans (Text.suffix_of_afterKeyword? hvoid)).trans hpublic
    · cases h

/-- A declaration reaches to the end of its name. -/
theorem suffix_take_of_methodAt? (h : methodAt? s = some header) :
    header.length ≤ s.length ∧ header.name <:+ s.take header.length := by
  unfold methodAt? at h
  split at h
  · cases h
  · next r hwords =>
    obtain ⟨name, hname, rfl⟩ := Option.map_eq_some_iff.1 h
    obtain ⟨words, rfl⟩ := (suffix_of_afterMethodWords? hwords).trans (Text.suffix_trimLeft s)
    obtain ⟨rest, rfl⟩ := prefix_of_methodName? hname
    have hlength : (words ++ (name ++ rest)).length - (name ++ rest).length + name.length = (words ++ name).length := by
      simp only [List.length_append]
      omega
    constructor
    · change _ - _ + _ ≤ _
      rw [hlength, ← List.append_assoc]
      exact (List.prefix_append (words ++ name) rest).length_le
    · rw [hlength, ← List.append_assoc, List.take_left]
      exact List.suffix_append words name

/-- The keyword of a declaration follows its run of blanks. -/
theorem keyword_of_methodAt? (h : methodAt? s = some header) :
    ∃ r, Text.afterKeyword? Text.anyCase methodWord (Text.trimLeft s) = some r := by
  unfold methodAt? afterMethodWords? at h
  cases hword : Text.afterKeyword? Text.anyCase methodWord (Text.trimLeft s) with
  | none => simp [hword] at h
  | some r => exact ⟨r, rfl⟩

/-! ## The first declaration -/

-- The equation that `unfold` makes of this function computes with the code points of the blanks.
theorem methodFrom?_cons (inBlanks : Bool) (c : Char) (r : List Char) : methodFrom? inBlanks (c :: r) =
    match if Text.isBlank c && !inBlanks then methodAt? (c :: r) else none with
    | some header => some header
    | none => methodFrom? (Text.isBlank c) r := by rfl

/-- Whether a blank stands right before what follows `before`; `inBlanks` says so where nothing stands before it. -/
def afterBlank (inBlanks : Bool) (before : List Char) : Bool := (before.getLast?.map Text.isBlank).getD inBlanks

theorem afterBlank_eq_foldl (inBlanks : Bool) (before : List Char) :
    before.foldl (fun _ c => Text.isBlank c) inBlanks = afterBlank inBlanks before := by
  induction before generalizing inBlanks with
  | nil => rfl
  | cons c before ih =>
    rw [List.foldl_cons, ih]
    unfold afterBlank
    rw [List.getLast?_cons]
    cases before.getLast? <;> rfl

/-- The declaration whose run of blanks starts the text, if no blank stands before it. -/
def methodAtRun? (inBlanks : Bool) (s : List Char) : Option MethodHeader :=
  if Text.startsBlank s && !inBlanks then methodAt? s else none

theorem methodFrom?_eq_leftmost (inBlanks : Bool) (s : List Char) :
    methodFrom? inBlanks s = Text.leftmost methodAtRun? (fun _ c => Text.isBlank c) inBlanks s := by
  induction s generalizing inBlanks with
  | nil => rfl
  | cons c r ih =>
    rw [methodFrom?_cons, Text.leftmost, ← ih]
    change (match methodAtRun? inBlanks (c :: r) with | some header => some header | none => _) = _
    cases methodAtRun? inBlanks (c :: r) <;> rfl

/-- The declaration of a text is the one in `rest`, which starts with the first run of blanks that one follows. -/
structure FirstMethod (inBlanks : Bool) (s before rest : List Char) (header : MethodHeader) : Prop where
  split : s = before ++ rest
  run : Text.startsBlank rest = true ∧ afterBlank inBlanks before = false
  here : methodAt? rest = some header
  first : ∀ before' rest', s = before' ++ rest' → before'.length < before.length →
    Text.startsBlank rest' = true → afterBlank inBlanks before' = false → methodAt? rest' = none

theorem exists_firstMethod {inBlanks : Bool} (h : methodFrom? inBlanks s = some header) :
    ∃ before rest, FirstMethod inBlanks s before rest header := by
  rw [methodFrom?_eq_leftmost] at h
  obtain ⟨before, rest, hleftmost⟩ := Text.leftmost_eq_some_iff.1 h
  have hhere := hleftmost.here
  rw [afterBlank_eq_foldl] at hhere
  unfold methodAtRun? at hhere
  split at hhere
  · next hrun =>
    simp only [Bool.and_eq_true, Bool.not_eq_true'] at hrun
    refine ⟨before, rest, hleftmost.split, hrun, hhere, ?_⟩
    intro before' rest' hsplit hshort hblank hafter
    have hfirst := hleftmost.first before' rest' hsplit hshort
    rw [afterBlank_eq_foldl] at hfirst
    simpa [methodAtRun?, hblank, hafter] using hfirst
  · cases hhere

/-- A declaration with nothing but blanks before it starts the text. -/
theorem FirstMethod.before_eq_nil {before rest : List Char} (hfirst : FirstMethod false s before rest header)
    (hblank : Text.AllBlank before) : before = [] := by
  cases hlast : before.getLast? with
  | none => exact List.getLast?_eq_none_iff.1 hlast
  | some c =>
    have hafter : Text.isBlank c = false := by simpa [afterBlank, hlast] using hfirst.run.2
    exact absurd (hblank c (List.mem_of_getLast? hlast)) (by simp [hafter])

end TestDiscovery.Grammar
