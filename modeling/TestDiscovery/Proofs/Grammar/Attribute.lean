-- SUMMARY: Attributes as the grammar has them, and that reading finds exactly these.
import TestDiscovery.Grammar.Annotation
import TestDiscovery.Proofs.Text.Keyword
import TestDiscovery.Proofs.Text.Pieces

/-!
# Attributes as they are written

An attribute is written as its word, an equals sign and its value between quotes. Neither an equals sign nor a quote is in
its word, and no quote is in its value, so a text starts with one attribute at most, and reading finds it.
-/

namespace TestDiscovery.Grammar

open Text

variable {s t : List Char} {a b : Attribute}

/-- The word of an attribute in some letter case. -/
def AttributeWord (w : List Char) : Prop := Spells anyCase classesWord w ∨ Spells anyCase proceduresWord w

namespace Attribute

/-- An attribute with its quotes. -/
def text (a : Attribute) : List Char := a.word ++ '=' :: '"' :: (a.value ++ ['"'])

/-- An attribute as the grammar has it: one of the two words, and no quote between the quotes. -/
structure Wellformed (a : Attribute) : Prop where
  word : AttributeWord a.word
  value : '"' ∉ a.value

end Attribute

theorem AttributeWord.not_mem {c : Char} (h : AttributeWord s) (hc : c ∈ ['=', '"', ',']) : c ∉ s := by
  have hall : (classesWord ++ proceduresWord).all (fun d => ['=', '"', ','].all fun c => !anyCase d c) = true := by decide
  have hfits : ∀ d ∈ classesWord ++ proceduresWord, anyCase d c = false := fun d hd =>
    Bool.not_eq_eq_eq_not.1 (List.all_eq_true.1 (List.all_eq_true.1 hall d hd) c hc)
  rcases h with h | h
  · exact h.not_mem fun d hd => hfits d (List.mem_append_left _ hd)
  · exact h.not_mem fun d hd => hfits d (List.mem_append_right _ hd)

namespace Attribute

@[simp] theorem length_text (a : Attribute) : a.text.length = a.word.length + a.value.length + 3 := by
  simp only [text, List.length_append, List.length_cons, List.length_nil]
  omega

theorem text_append (a : Attribute) (s : List Char) : a.text ++ s = a.word ++ '=' :: '"' :: (a.value ++ '"' :: s) := by
  simp [text]

/-- One attribute at most stands at the front of a text. -/
theorem text_append_inj (ha : a.Wellformed) (hb : b.Wellformed) (h : a.text ++ s = b.text ++ t) : a = b ∧ s = t := by
  rw [text_append, text_append] at h
  obtain ⟨hword, hrest⟩ := cut_unique (ha.word.not_mem (by simp)) (hb.word.not_mem (by simp)) h
  obtain ⟨hvalue, hafter⟩ := cut_unique ha.value hb.value (List.cons.inj hrest).2
  cases a
  cases b
  exact ⟨by simp_all, hafter⟩

end Attribute

/-! ## Reading -/

theorem attributeValue?_eq_some_iff {value : List Char} :
    attributeValue? s = some value ↔ '"' ∉ value ∧ ∃ after, s = '=' :: '"' :: (value ++ '"' :: after) := by
  constructor
  · intro h
    unfold attributeValue? at h
    split at h
    · next r =>
      split at h
      · cases h
      · next hclosed =>
        obtain rfl := Option.some.inj h
        refine ⟨fun hmem => by simpa using List.mem_takeWhile_imp hmem, ?_⟩
        obtain ⟨c, after, hdrop⟩ := List.exists_cons_of_ne_nil fun hnil => hclosed (List.isEmpty_iff.2 hnil)
        obtain rfl : c = '"' := by
          have hstop := List.head?_dropWhile_not (· != '"') r
          simpa [hdrop] using hstop
        exact ⟨after, by rw [← hdrop, List.takeWhile_append_dropWhile]⟩
    · cases h
  · rintro ⟨hvalue, after, rfl⟩
    have hopen : ∀ c ∈ value, (c != '"') = true := by
      intro c hc
      rw [bne_iff_ne]
      rintro rfl
      exact hvalue hc
    simp [attributeValue?, List.takeWhile_append_of_pos hopen, List.dropWhile_append_of_pos hopen]

theorem attributeWith?_eq_some_iff {word : List Char} :
    attributeWith? word s = some a ↔ Spells anyCase word a.word ∧ '"' ∉ a.value ∧ ∃ after, s = a.text ++ after := by
  constructor
  · intro h
    obtain ⟨r, hword, hattribute⟩ := Option.bind_eq_some_iff.1 h
    obtain ⟨value, hvalue, rfl⟩ := Option.map_eq_some_iff.1 hattribute
    obtain ⟨w, hspells, rfl⟩ := afterKeyword?_eq_some_iff.1 hword
    obtain ⟨hquote, after, rfl⟩ := attributeValue?_eq_some_iff.1 hvalue
    have htake : (w ++ '=' :: '"' :: (value ++ '"' :: after)).take word.length = w := by
      rw [hspells.length_eq, List.take_left]
    simp only [htake]
    exact ⟨hspells, hquote, after, (Attribute.text_append ⟨w, value⟩ after).symm⟩
  · rintro ⟨hspells, hquote, after, rfl⟩
    have hvalue : attributeValue? ('=' :: '"' :: (a.value ++ '"' :: after)) = some a.value :=
      attributeValue?_eq_some_iff.2 ⟨hquote, after, rfl⟩
    have hword : afterKeyword? anyCase word (a.text ++ after) = some ('=' :: '"' :: (a.value ++ '"' :: after)) :=
      afterKeyword?_eq_some_iff.2 ⟨a.word, hspells, a.text_append after⟩
    have htake : (a.text ++ after).take word.length = a.word := by
      rw [a.text_append, hspells.length_eq, List.take_left]
    simp [attributeWith?, hword, hvalue, htake]

/-- What is read at the front of a text is the attribute that is written there. -/
theorem attributeAt?_eq_some_iff : attributeAt? s = some a ↔ a.Wellformed ∧ ∃ after, s = a.text ++ after := by
  constructor
  · intro h
    rcases Option.or_eq_some_iff.1 h with h | ⟨-, h⟩
    · obtain ⟨hword, hvalue, hafter⟩ := attributeWith?_eq_some_iff.1 h
      exact ⟨⟨.inl hword, hvalue⟩, hafter⟩
    · obtain ⟨hword, hvalue, hafter⟩ := attributeWith?_eq_some_iff.1 h
      exact ⟨⟨.inr hword, hvalue⟩, hafter⟩
  · rintro ⟨ha, after, rfl⟩
    unfold attributeAt?
    cases hclasses : attributeWith? classesWord (a.text ++ after) with
    | some b =>
      obtain ⟨hword, hvalue, after', hsplit⟩ := attributeWith?_eq_some_iff.1 hclasses
      obtain ⟨rfl, -⟩ := Attribute.text_append_inj ha ⟨.inl hword, hvalue⟩ hsplit
      rfl
    | none =>
      rcases ha.word with hword | hword
      · rw [attributeWith?_eq_some_iff.2 ⟨hword, ha.value, after, rfl⟩] at hclasses
        cases hclasses
      · exact attributeWith?_eq_some_iff.2 ⟨hword, ha.value, after, rfl⟩

end TestDiscovery.Grammar
