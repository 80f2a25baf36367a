-- SUMMARY: Names are spelled on their lines: each name that is read is a stretch of the text that it is read from.
import TestDiscovery.Grammar.Header
import TestDiscovery.Proofs.Grammar.Attribute
import TestDiscovery.Proofs.Text.Leftmost
import TestDiscovery.Proofs.Text.Occurrence

/-!
# Names on their lines

Whatever is read as a name is a stretch of the line: reading cuts a text at its front and its end, and takes nothing
from elsewhere. So the search for the column of a name always finds one, and the name is spelled from there.
-/

namespace TestDiscovery

namespace Text

theorem suffix_of_afterKeyword? {fits : Fits} {k s r : List Char} (h : afterKeyword? fits k s = some r) : r <:+ s := by
  induction k generalizing s with
  | nil =>
    obtain rfl : s = r := Option.some.inj h
    exact List.suffix_rfl
  | cons a k ih =>
    cases s with
    | nil => cases h
    | cons c s =>
      unfold afterKeyword? at h
      split at h
      · exact (ih h).trans (List.suffix_cons c s)
      · cases h

theorem suffix_trimLeft (s : List Char) : trimLeft s <:+ s := List.dropWhile_suffix _

end Text

namespace Grammar

variable {s r line name : List Char}

/-! ## Headers -/

/-- A name is at least one character of the word that the text starts with. -/
theorem prefix_word_of_headedName? (h : headedName? s = some name) : name ≠ [] ∧ name <+: Text.word s := by
  simp only [headedName?] at h
  split at h
  · cases h
  · next hword =>
    split at h
    · obtain rfl := Option.some.inj h
      exact ⟨fun hnil => hword (List.isEmpty_iff.2 hnil), List.prefix_rfl⟩
    · split at h
      · next before after hcut =>
        split at h
        · cases h
        · next hbefore =>
          obtain rfl := Option.some.inj h
          obtain ⟨hsplit, -⟩ := Text.append_of_splitLast? hcut
          exact ⟨fun hnil => hbefore (List.isEmpty_iff.2 hnil), hsplit ▸ List.prefix_append before (':' :: after)⟩
      · cases h

theorem prefix_of_headedName? (h : headedName? s = some name) : name <+: s :=
  (prefix_word_of_headedName? h).2.trans (List.takeWhile_prefix _)

theorem infix_of_headerAt? {word : List Char} (h : headerAt? word s = some name) : name <:+: s := by
  unfold headerAt? at h
  split at h
  · cases h
  · next r hword =>
    split at h
    · have htrim : Text.trimLeft r <:+ s := (Text.suffix_trimLeft r).trans (Text.suffix_of_afterKeyword? hword)
      exact (prefix_of_headedName? h).isInfix.trans htrim.isInfix
    · cases h

theorem infix_of_className? (h : className? line = some name) : name <:+: line :=
  (infix_of_headerAt? h).trans (Text.suffix_trimLeft line).isInfix

/-- The procedure whose header starts the text; `fresh` says whether the text begins at a word start. -/
def procedureAt? (fresh : Bool) (s : List Char) : Option (List Char) :=
  if fresh then headerAt? procedureWord s else none

theorem procedureFrom?_eq_leftmost (fresh : Bool) (s : List Char) :
    procedureFrom? fresh s = Text.leftmost procedureAt? (fun _ c => Text.isBlank c) fresh s := by
  induction s generalizing fresh with
  | nil => rfl
  | cons c r ih =>
    rw [procedureFrom?, Text.leftmost, ← ih, ← procedureAt?]
    cases procedureAt? fresh (c :: r) <;> rfl

theorem infix_of_procedureAt? {fresh : Bool} (h : procedureAt? fresh s = some name) : name <:+: s := by
  unfold procedureAt? at h
  split at h
  · exact infix_of_headerAt? h
  · cases h

theorem infix_of_procedureName? (h : procedureName? line = some name) : name <:+: line := by
  rw [procedureName?, procedureFrom?_eq_leftmost] at h
  exact Text.infix_of_leftmost id (fun _ _ _ => infix_of_procedureAt?) h

/-! ## Annotations -/

/-- The parameters of an annotation at the front of a text. -/
def parametersAt? (fits : Text.Fits) (s : List Char) : Option (List Char) :=
  ((Text.afterKeyword? fits annotationWord s).bind
    fun inner => Text.splitLast? ')' (inner.takeWhile (· != '\n'))).map (·.1)

theorem parameters?_eq_leftmost (fits : Text.Fits) (s : List Char) :
    parameters? fits s = Text.leftmost (fun _ => parametersAt? fits) (fun _ _ => ()) () s := by
  induction s with
  | nil => rfl
  | cons c r ih =>
    rw [parameters?, Text.leftmost, ← ih]
    unfold parametersAt?
    split
    · next hhere => rw [hhere]; rfl
    · next hhere => rw [hhere]; rfl

theorem infix_of_parametersAt? {fits : Text.Fits} {inside : List Char} (h : parametersAt? fits s = some inside) :
    inside <:+: s := by
  unfold parametersAt? at h
  obtain ⟨⟨found, after⟩, hcut, rfl⟩ := Option.map_eq_some_iff.1 h
  obtain ⟨inner, hinner, hcut⟩ := Option.bind_eq_some_iff.1 hcut
  obtain ⟨hsplit, -⟩ := Text.append_of_splitLast? hcut
  have hline : inner.takeWhile (· != '\n') <+: inner := List.takeWhile_prefix _
  have hinside : found <+: inner := (hsplit ▸ List.prefix_append found (')' :: after)).trans hline
  exact hinside.isInfix.trans (Text.suffix_of_afterKeyword? hinner).isInfix

theorem infix_of_parameters? {fits : Text.Fits} {inside : List Char} (h : parameters? fits s = some inside) :
    inside <:+: s := by
  rw [parameters?_eq_leftmost] at h
  exact Text.infix_of_leftmost id (fun _ _ _ => infix_of_parametersAt?) h

theorem infix_of_attributeAt? {a : Attribute} (h : attributeAt? s = some a) : a.value <:+: s := by
  obtain ⟨-, after, rfl⟩ := attributeAt?_eq_some_iff.1 h
  exact ⟨a.word ++ ['=', '"'], '"' :: after, by simp [Attribute.text]⟩

theorem firstAttribute?_eq_leftmost (s : List Char) :
    firstAttribute? s = Text.leftmost (fun _ => attributeAt?) (fun _ _ => ()) () s := by
  induction s with
  | nil => rfl
  | cons c r ih => rw [firstAttribute?, Text.leftmost, ← ih]

/-- The attribute behind a comma that starts the text. -/
def attributeAfterComma? : List Char → Option Attribute
  | [] => none
  | c :: r => if c = ',' then attributeAt? r else none

theorem furtherAttribute?_eq_leftmost (s : List Char) :
    furtherAttribute? s = Text.leftmost (fun _ => attributeAfterComma?) (fun _ _ => ()) () s := by
  induction s with
  | nil => rfl
  | cons c r ih => rw [furtherAttribute?, Text.leftmost, ← ih, attributeAfterComma?]

theorem infix_of_attributeAfterComma? {a : Attribute} (h : attributeAfterComma? s = some a) : a.value <:+: s := by
  cases s with
  | nil => cases h
  | cons c r =>
    simp only [attributeAfterComma?] at h
    split at h
    · exact (infix_of_attributeAt? h).trans (List.suffix_cons c r).isInfix
    · cases h

/-- The names that the attributes of a line list are spelled on the line. -/
theorem infix_of_mem_attribute {fits : Text.Fits} {inside : List Char} {a : Attribute}
    (hinside : parameters? fits line = some inside)
    (ha : a ∈ (firstAttribute? inside).toList ++ (furtherAttribute? inside).toList)
    (hname : name ∈ Text.splitOn ',' a.value) : name <:+: line := by
  have hvalue : a.value <:+: inside := by
    rcases List.mem_append.1 ha with ha | ha
    · rw [Option.mem_toList, firstAttribute?_eq_leftmost] at ha
      exact Text.infix_of_leftmost Attribute.value (fun _ _ _ => infix_of_attributeAt?) ha
    · rw [Option.mem_toList, furtherAttribute?_eq_leftmost] at ha
      exact Text.infix_of_leftmost Attribute.value (fun _ _ _ => infix_of_attributeAfterComma?) ha
  exact (Text.infix_of_mem_splitOn hname).trans (hvalue.trans (infix_of_parameters? hinside))

/-- The members of a line are those for certain names, all of them spelled on the line. -/
theorem mem_suiteMembers {fits : Text.Fits} {n : Int} {m : SuiteMember} (h : m ∈ suiteMembers fits n line) :
    ∃ a name, m = Attribute.member n line a name ∧ name <:+: line := by
  unfold suiteMembers at h
  split at h
  · cases h
  · next inside hinside =>
    obtain ⟨a, ha, hm⟩ := List.mem_flatMap.1 h
    obtain ⟨name, hname, rfl⟩ := List.mem_map.1 hm
    exact ⟨a, name, rfl, infix_of_mem_attribute hinside ha hname⟩

/-! ## Columns -/

/-- The column of a name that is spelled on the line: the name fills the line from there, and from no column before. -/
theorem columnOf_of_infix (h : name <:+: line) :
    ∃ column : Nat, columnOf name line = column ∧ column + name.length ≤ line.length ∧ name <+: line.drop column ∧
      ∀ earlier < column, ¬ name <+: line.drop earlier := by
  cases hindex : Text.indexOf? name line with
  | none => exact absurd h (Text.indexOf?_eq_none_iff.1 hindex)
  | some column => exact ⟨column, by rw [columnOf, hindex], Text.indexOf?_eq_some hindex⟩

end Grammar

end TestDiscovery
