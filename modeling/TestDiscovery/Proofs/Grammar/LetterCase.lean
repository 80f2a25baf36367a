-- SUMMARY: Declarations, markers and annotations are read in the same way whatever the case of letters.
import TestDiscovery.Proofs.Grammar.Marker
import TestDiscovery.Proofs.Grammar.Method
import TestDiscovery.Proofs.Text.LetterCase

/-!
# Letter case of lines

All keywords are compared in any letter case, and what stands between them is told apart by blanks and signs. So a line
with small letters declares what the line declares, with small letters, at the same place and of the same length.
Annotations are no exception, where their word is compared in any case as well.
-/

namespace TestDiscovery.Grammar

open Text

/-! ## Markers -/

/-- A text carries a marker in any letter case. -/
theorem Marker.occursIn_small (m : Marker) (s : List Char) : m.occursIn (small s) = m.occursIn s := by
  rw [Bool.eq_iff_iff, Marker.occursIn_iff, Marker.occursIn_iff, Lower.flatMap_plain_small]

/-- Slashes have no case. -/
theorem isCommentLine_small (line : List Char) : isCommentLine (small line) = isCommentLine line := by
  unfold isCommentLine
  rw [Bool.eq_iff_iff, List.isPrefixOf_iff_prefix, List.isPrefixOf_iff_prefix, trim_small,
    prefix_small_iff (by simp)]

/-! ## Headers -/

theorem headedName?_small (s : List Char) : headedName? (small s) = (headedName? s).map small := by
  have hcolon : (trimLeft (afterWord (small s))).head? = some ':' ↔ (trimLeft (afterWord s)).head? = some ':' := by
    rw [afterWord_small, trimLeft_small, small, List.head?_map]
    cases (trimLeft (afterWord s)).head? with
    | none => simp
    | some c => simp [toLower_eq_iff (show ':'.isAlpha = false by decide)]
  simp only [headedName?, word_small, isEmpty_small, hcolon, splitLast?_small (show ':'.isAlpha = false by decide)]
  split
  · rfl
  · split
    · rfl
    · cases splitLast? ':' (word s) with
      | none => rfl
      | some parts =>
        simp only [Option.map_some, isEmpty_small]
        split <;> rfl

theorem headerAt?_small {word : List Char} (hword : small word = word) (s : List Char) :
    headerAt? word (small s) = (headerAt? word s).map small := by
  unfold headerAt?
  rw [afterKeyword?_small hword]
  cases afterKeyword? anyCase word s with
  | none => rfl
  | some r =>
    simp only [Option.map_some, startsBlank_small, trimLeft_small, headedName?_small]
    split <;> rfl

theorem className?_small (line : List Char) : className? (small line) = (className? line).map small := by
  unfold className?
  rw [trimLeft_small, headerAt?_small (by decide)]

theorem procedureName?_small (line : List Char) : procedureName? (small line) = (procedureName? line).map small := by
  unfold procedureName?
  rw [procedureFrom?_eq_leftmost, procedureFrom?_eq_leftmost]
  refine leftmost_small small ?_ (fun _ => isBlank_toLower) true line
  intro fresh s
  unfold procedureAt?
  rw [headerAt?_small (by decide)]
  split <;> rfl

/-! ## Methods -/

/-- The declaration with small letters in its name. -/
def MethodHeader.small (header : MethodHeader) : MethodHeader := { header with name := Text.small header.name }

theorem methodName?_small (s : List Char) : methodName? (small s) = (methodName? s).map small := by
  have hcontinues (c : Char) : continuesName c.toLower = continuesName c := by
    rw [continuesName, isBlank_toLower, bne_toLower (by decide), ← continuesName]
  cases s with
  | nil => rfl
  | cons c r =>
    rw [small_cons, methodName?, methodName?, takeWhile_small hcontinues, isEmpty_small]
    split <;> rfl

theorem skipPublic_small (s : List Char) : skipPublic (small s) = small (skipPublic s) := by
  unfold skipPublic
  rw [afterKeyword?_small (by decide)]
  cases afterKeyword? anyCase publicWord s with
  | none => rfl
  | some r => exact trimLeft_small r

theorem afterMethodWords?_small (s : List Char) :
    afterMethodWords? (small s) = (afterMethodWords? s).map small := by
  unfold afterMethodWords?
  rw [afterKeyword?_small (by decide)]
  cases afterKeyword? anyCase methodWord s with
  | none => rfl
  | some r =>
    simp only [Option.map_some, startsBlank_small, trimLeft_small, skipPublic_small]
    rw [afterKeyword?_small (by decide)]
    split
    · cases afterKeyword? anyCase voidWord (skipPublic (trimLeft r)) with
      | none => rfl
      | some rest => exact congrArg some (trimLeft_small rest)
    · rfl

theorem methodAt?_small (s : List Char) : methodAt? (small s) = (methodAt? s).map MethodHeader.small := by
  unfold methodAt?
  rw [trimLeft_small, afterMethodWords?_small]
  cases afterMethodWords? (trimLeft s) with
  | none => rfl
  | some r =>
    simp only [Option.map_some]
    rw [methodName?_small]
    cases methodName? r with
    | none => rfl
    | some name => simp [MethodHeader.small]

theorem method?_small (line : List Char) : method? (small line) = (method? line).map MethodHeader.small := by
  unfold method?
  rw [methodFrom?_eq_leftmost, methodFrom?_eq_leftmost]
  refine leftmost_small MethodHeader.small ?_ (fun _ => isBlank_toLower) false line
  intro inBlanks s
  unfold methodAtRun?
  rw [startsBlank_small, methodAt?_small]
  split <;> rfl

/-! ## Annotations -/

theorem parametersAt?_small (s : List Char) :
    parametersAt? anyCase (small s) = (parametersAt? anyCase s).map small := by
  unfold parametersAt?
  rw [afterKeyword?_small (by decide)]
  cases afterKeyword? anyCase annotationWord s with
  | none => rfl
  | some inner =>
    simp only [Option.map_some, Option.bind_some]
    rw [takeWhile_small (bne_toLower (by decide)), splitLast?_small (by decide)]
    cases splitLast? ')' (inner.takeWhile (· != '\n')) <;> rfl

theorem parameters?_small (line : List Char) :
    parameters? anyCase (small line) = (parameters? anyCase line).map small := by
  rw [parameters?_eq_leftmost, parameters?_eq_leftmost]
  exact leftmost_small small (fun _ => parametersAt?_small) (fun _ _ => rfl) () line

/-- The attribute with small letters. -/
def Attribute.small (a : Attribute) : Attribute := ⟨Text.small a.word, Text.small a.value⟩

theorem attributeValue?_eq_none_of_unquoted {s : List Char} (h : ¬ ['=', '"'] <+: s) : attributeValue? s = none := by
  unfold attributeValue?
  split
  · next r => exact absurd (List.prefix_append ['=', '"'] r) h
  · rfl

theorem attributeValue?_small (s : List Char) : attributeValue? (small s) = (attributeValue? s).map small := by
  have hquote (c : Char) : (c.toLower != '"') = (c != '"') := bne_toLower (by decide) c
  have hsigns : ['=', '"'] <+: small s ↔ ['=', '"'] <+: s := prefix_small_iff (by simp)
  by_cases hopen : ['=', '"'] <+: s
  · obtain ⟨r, rfl⟩ := hopen
    change attributeValue? ('=' :: '"' :: small r) = (attributeValue? ('=' :: '"' :: r)).map small
    rw [attributeValue?, attributeValue?, dropWhile_small hquote, takeWhile_small hquote, isEmpty_small]
    split <;> rfl
  · rw [attributeValue?_eq_none_of_unquoted hopen, attributeValue?_eq_none_of_unquoted (mt hsigns.1 hopen)]
    rfl

theorem attributeWith?_small {word : List Char} (hword : small word = word) (s : List Char) :
    attributeWith? word (small s) = (attributeWith? word s).map Attribute.small := by
  unfold attributeWith?
  rw [afterKeyword?_small hword]
  cases afterKeyword? anyCase word s with
  | none => rfl
  | some r =>
    simp only [Option.map_some, Option.bind_some]
    rw [attributeValue?_small]
    cases attributeValue? r with
    | none => rfl
    | some value => simp [Attribute.small, take_small]

theorem attributeAt?_small (s : List Char) : attributeAt? (small s) = (attributeAt? s).map Attribute.small := by
  unfold attributeAt?
  rw [attributeWith?_small (by decide), attributeWith?_small (by decide)]
  cases attributeWith? classesWord s <;> rfl

theorem firstAttribute?_small (s : List Char) :
    firstAttribute? (small s) = (firstAttribute? s).map Attribute.small := by
  rw [firstAttribute?_eq_leftmost, firstAttribute?_eq_leftmost]
  exact leftmost_small Attribute.small (fun _ => attributeAt?_small) (fun _ _ => rfl) () s

theorem furtherAttribute?_small (s : List Char) :
    furtherAttribute? (small s) = (furtherAttribute? s).map Attribute.small := by
  rw [furtherAttribute?_eq_leftmost, furtherAttribute?_eq_leftmost]
  refine leftmost_small Attribute.small ?_ (fun _ _ => rfl) () s
  intro _ s
  cases s with
  | nil => rfl
  | cons c r =>
    simp only [small_cons, attributeAfterComma?, attributeAt?_small,
      toLower_eq_iff (show ','.isAlpha = false by decide)]
    split <;> rfl

end TestDiscovery.Grammar
