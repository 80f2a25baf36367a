-- SUMMARY: Suite annotations as they may be written, and the members that are read from them.
import TestDiscovery.Proofs.Grammar.Attribute
import TestDiscovery.Proofs.Grammar.Declaration
import TestDiscovery.Proofs.Grammar.Marker
import TestDiscovery.Proofs.Text.Pieces

/-!
# Annotations as they are written

A suite annotation is written with one or two attributes, each a list of names. The attributes are found by searching
for a keyword, an equals sign and a quote, and the names may contain keywords, commas excepted: what keeps an attribute
from being found inside a value is that no name contains an equals sign. So the members that are read are the names, as
they are written and in this order.
-/

namespace TestDiscovery.Grammar

open Text

/-! ## Attributes -/

/-- Which attribute a list of names is. -/
inductive ListKind where
  | classes
  | procedures

def ListKind.word : ListKind → List Char
  | classes => classesWord
  | procedures => proceduresWord

theorem ListKind.not_mem_word (k : ListKind) {c : Char} (hc : c ∉ classesWord ++ proceduresWord) : c ∉ k.word := by
  rw [List.mem_append, not_or] at hc
  cases k with
  | classes => exact hc.1
  | procedures => exact hc.2

/-- An attribute with a list of names. -/
structure Listing where
  kind : ListKind
  names : List (List Char)
  names_ne : names ≠ []
  names_inLine : ∀ name ∈ names, '\n' ∉ name
  names_noComma : ∀ name ∈ names, ',' ∉ name
  names_noQuote : ∀ name ∈ names, '"' ∉ name
  names_noEquals : ∀ name ∈ names, '=' ∉ name

namespace Listing

variable (l : Listing)

def value : List Char := joinWith ',' l.names

def text : List Char := l.kind.word ++ '=' :: '"' :: (l.value ++ ['"'])

def toAttribute : Attribute := ⟨l.kind.word, l.value⟩

theorem quote_not_mem_value : '"' ∉ l.value := not_mem_joinWith (by decide) l.names_noQuote

theorem equals_not_mem_value : '=' ∉ l.value := not_mem_joinWith (by decide) l.names_noEquals

theorem inLine : '\n' ∉ l.text := by
  have hword : '\n' ∉ l.kind.word := l.kind.not_mem_word (by decide)
  have hvalue : '\n' ∉ l.value := not_mem_joinWith (by decide) l.names_inLine
  simp [text, hword, hvalue]

/-- The names are read from the value as they are written. -/
theorem members_toAttribute (n : Int) (line : List Char) :
    l.toAttribute.members n line = l.names.map (l.toAttribute.member n line) :=
  congrArg (List.map _) (splitOn_joinWith l.names_ne l.names_noComma)

end Listing

/-! ## Reading an attribute -/

variable {r t rest : List Char} {fits : Fits}

theorem ListKind.attributeWord (k : ListKind) : AttributeWord k.word := by
  have hfits : ∀ c, anyCase c c = true := fun c => by simp [anyCase]
  cases k with
  | classes => exact .inl (.refl hfits classesWord)
  | procedures => exact .inr (.refl hfits proceduresWord)

theorem attributeAt?_text (l : Listing) (rest : List Char) : attributeAt? (l.text ++ rest) = some l.toAttribute :=
  attributeAt?_eq_some_iff.2 ⟨⟨l.kind.attributeWord, l.quote_not_mem_value⟩, rest, rfl⟩

/-- The rest of a value is no attribute: an attribute has an equals sign before its first quote. -/
theorem attributeAt?_value (hr : '=' ∉ r) : attributeAt? (r ++ '"' :: t) = none := by
  refine Option.eq_none_iff_forall_ne_some.2 fun a ha => ?_
  obtain ⟨hwellformed, after, hsplit⟩ := attributeAt?_eq_some_iff.1 ha
  have hword : '"' ∉ a.word ++ ['='] := by simpa using hwellformed.word.not_mem (c := '"') (by simp)
  have hquote : (a.word ++ ['=']) ++ '"' :: (a.value ++ '"' :: after) = r ++ '"' :: t := by
    simpa [a.text_append] using hsplit.symm
  obtain ⟨m, rfl, -⟩ := cut_behind hword hquote
  simp at hr

/-! ## Searching for attributes -/

theorem firstAttribute?_text (l : Listing) (rest : List Char) : firstAttribute? (l.text ++ rest) = some l.toAttribute := by
  have hhere := attributeAt?_text l rest
  cases htext : l.text ++ rest with
  | nil =>
    rw [htext] at hhere
    cases hhere
  | cons c r =>
    rw [htext] at hhere
    rw [firstAttribute?, hhere]
    rfl

/-- Without a comma no further attribute starts. -/
theorem furtherAttribute?_append (h : ',' ∉ r) (t : List Char) : furtherAttribute? (r ++ t) = furtherAttribute? t := by
  induction r with
  | nil => rfl
  | cons c r ih =>
    rw [List.mem_cons, not_or] at h
    rw [List.cons_append, furtherAttribute?, if_neg (Ne.symm h.1), ih h.2]
    rfl

/-- Inside a value no further attribute starts. -/
theorem furtherAttribute?_value (h : '=' ∉ r) : furtherAttribute? (r ++ '"' :: t) = furtherAttribute? t := by
  induction r with
  | nil => exact furtherAttribute?_append (r := ['"']) (by decide) t
  | cons c r ih =>
    rw [List.mem_cons, not_or] at h
    rw [List.cons_append, furtherAttribute?, attributeAt?_value h.2, ih h.2, ite_self]
    rfl

theorem furtherAttribute?_text (l : Listing) (rest : List Char) :
    furtherAttribute? (l.text ++ rest) = furtherAttribute? rest := by
  have hopening : ',' ∉ l.kind.word ++ ['=', '"'] := by
    rw [List.mem_append, not_or]
    exact ⟨l.kind.not_mem_word (by decide), by decide⟩
  have htext : l.text ++ rest = (l.kind.word ++ ['=', '"']) ++ (l.value ++ '"' :: rest) := by simp [Listing.text]
  rw [htext, furtherAttribute?_append hopening, furtherAttribute?_value l.equals_not_mem_value]

/-! ## Annotations -/

/-- An annotation: one or two attributes with a comma between them, and a period at the end or none. -/
structure SuiteAnnotation where
  first : Listing
  second : Option Listing
  dotted : Bool

namespace SuiteAnnotation

variable (a : SuiteAnnotation)

def listings : List Listing := a.first :: a.second.toList

def names : List (List Char) := a.listings.flatMap Listing.names

/-- What stands between the parentheses. -/
def parameters : List Char := a.first.text ++ (a.second.map fun l => ',' :: l.text).getD []

def ending : List Char := if a.dotted then ['.'] else []

def text : List Char := annotationWord ++ (a.parameters ++ ')' :: a.ending)

theorem not_mem_ending {c : Char} (h : c ≠ '.') : c ∉ a.ending := by
  unfold ending
  split <;> simp [h]

theorem inLine_parameters : '\n' ∉ a.parameters := by
  have hfirst := a.first.inLine
  unfold parameters
  cases a.second with
  | none => simpa using hfirst
  | some second => simpa [hfirst] using second.inLine

theorem inLine_inner : '\n' ∉ a.parameters ++ ')' :: a.ending := by
  simp [a.inLine_parameters, a.not_mem_ending]

theorem inLine : '\n' ∉ a.text := by
  have hword : '\n' ∉ annotationWord := by decide
  rw [text, List.mem_append, not_or]
  exact ⟨hword, a.inLine_inner⟩

/-- The parameters are what stands before the last parenthesis. -/
theorem parameters?_text (hfits : ∀ c, fits c c = true) : parameters? fits a.text = some a.parameters := by
  have hword : afterKeyword? fits annotationWord a.text = some (a.parameters ++ ')' :: a.ending) :=
    afterKeyword?_eq_some_iff.2 ⟨annotationWord, .refl hfits annotationWord, rfl⟩
  have hline : (a.parameters ++ ')' :: a.ending).takeWhile (· != '\n') = a.parameters ++ ')' :: a.ending :=
    takeWhile_of_not_mem a.inLine_inner
  have hcut : splitLast? ')' (a.parameters ++ ')' :: a.ending) = some (a.parameters, a.ending) :=
    splitLast?_append_cons (a.not_mem_ending (by decide))
  cases htext : a.text with
  | nil =>
    rw [htext] at hword
    cases hword
  | cons c r =>
    rw [htext] at hword
    simp only [parameters?, hword, Option.bind_some, hline, hcut]

/-- Both attributes are found. -/
theorem attributes_parameters :
    (firstAttribute? a.parameters).toList ++ (furtherAttribute? a.parameters).toList =
      a.listings.map Listing.toAttribute := by
  unfold parameters listings
  rw [firstAttribute?_text, furtherAttribute?_text]
  cases a.second with
  | none => rfl
  | some second =>
    have hsecond : furtherAttribute? (',' :: second.text) = some second.toAttribute := by
      have hhere := attributeAt?_text second []
      rw [List.append_nil] at hhere
      rw [furtherAttribute?, if_pos rfl, hhere]
      rfl
    simp [hsecond]

/-- The members of a written annotation are its names in the order in which they are written. -/
theorem suiteMembers_text (hfits : ∀ c, fits c c = true) (n : Int) :
    suiteMembers fits n a.text =
      a.listings.flatMap fun l => l.names.map (l.toAttribute.member n a.text) := by
  unfold suiteMembers
  rw [a.parameters?_text hfits]
  simp only [a.attributes_parameters, List.flatMap_map, Listing.members_toAttribute]

/-- An annotation carries the marker of suites. -/
theorem suite_occursIn_text : Marker.suite.occursIn a.text = true := by
  have hword : annotationWord.flatMap Lower.plain = Marker.suite.text ++ ['('] := by decide
  rw [Marker.occursIn_iff, text, List.flatMap_append, hword, List.append_assoc]
  exact (List.prefix_append _ _).isInfix

theorem isCommentLine_text : isCommentLine a.text = false := by
  have hstart : startsBlank a.text = false := rfl
  refine isCommentLine_eq_false ?_
  rw [trimLeft_eq_self hstart]
  intro hhead
  exact absurd (Option.some.inj hhead) (by decide : '@' ≠ '/')

end SuiteAnnotation

end TestDiscovery.Grammar
