-- SUMMARY: Headers of classes and declarations of methods as they may be written, and what is read from them.
import TestDiscovery.Proofs.Grammar.Method
import TestDiscovery.Proofs.Text.Keyword

/-!
# Declarations as they are written

A declaration is written in words of any letter case with blanks between them. What is written is read back: the header
of a class gives the name of the class, and the declaration of a method gives its name and the length up to the end of
the name. A name of one character is no name of a method, so such a declaration is not read at all.
-/

namespace TestDiscovery.Grammar

open Text

/-! ## Words -/

/-- Blanks inside a line. -/
structure Gap where
  chars : List Char
  allBlank : AllBlank chars
  inLine : '\n' ∉ chars

/-- The gap of a single blank. -/
def Gap.blank : Gap := ⟨[' '], by decide, by decide⟩

theorem Gap.not_mem (g : Gap) {c : Char} (hc : isBlank c = false ∨ c = '\n') : c ∉ g.chars := by
  rcases hc with hc | rfl
  · exact g.allBlank.not_mem hc
  · exact g.inLine

/-- A word of the language in some letter case, and at least one blank after it. -/
structure SpelledWord (k : List Char) where
  letters : List Char
  gap : Gap
  spelled : InAnyCase k letters
  gap_ne : gap.chars ≠ []

namespace SpelledWord

variable {k : List Char} {s : List Char}

/-- The word and a single blank. -/
def single (letters : List Char) (h : InAnyCase k letters) : SpelledWord k := ⟨letters, .blank, h, List.cons_ne_nil _ _⟩

/-- The word and the blanks. -/
def text (w : SpelledWord k) : List Char := w.letters ++ w.gap.chars

theorem afterKeyword?_text (w : SpelledWord k) (s : List Char) :
    afterKeyword? anyCase k (w.text ++ s) = some (w.gap.chars ++ s) :=
  afterKeyword?_eq_some_iff.2 ⟨w.letters, w.spelled.spells, List.append_assoc ..⟩

theorem startsBlank_gap (w : SpelledWord k) (s : List Char) : startsBlank (w.gap.chars ++ s) = true :=
  startsBlank_append w.gap_ne w.gap.allBlank s

theorem letters_ne (w : SpelledWord k) (hk : k ≠ []) : w.letters ≠ [] := by
  intro hnil
  have hspelled := w.spelled
  unfold InAnyCase at hspelled
  rw [hnil] at hspelled
  exact hk hspelled.symm

theorem startsBlank_text (w : SpelledWord k) (hk : k ≠ []) (hblank : NoBlank k) (s : List Char) :
    startsBlank (w.text ++ s) = false := by
  unfold text
  rw [List.append_assoc]
  exact startsBlank_word_append (w.letters_ne hk) (w.spelled.noBlank hblank) _

theorem trimLeft_text (w : SpelledWord k) (hk : k ≠ []) (hblank : NoBlank k) (s : List Char) :
    trimLeft (w.text ++ s) = w.text ++ s := trimLeft_eq_self (w.startsBlank_text hk hblank s)

/-- Another keyword is not read from the word, if no case of its first letter fits the first letter there. -/
theorem afterKeyword?_text_eq_none (w : SpelledWord k) {other : List Char} {a b : Char} (s : List Char)
    (hother : other.head? = some a) (hk : k.head? = some b)
    (hunfit : ∀ c : Char, c.toLower = b → anyCase a c = false) : afterKeyword? anyCase other (w.text ++ s) = none := by
  obtain ⟨c, r, hletters⟩ := List.exists_cons_of_ne_nil (w.letters_ne (by rintro rfl; cases hk))
  obtain ⟨rest, rfl⟩ := List.head?_eq_some_iff.1 hother
  have hlower : c.toLower = b := by
    have hspelled : InAnyCase k (c :: r) := hletters ▸ w.spelled
    obtain rfl := hspelled
    exact Option.some.inj hk
  unfold text
  rw [hletters, List.cons_append, List.cons_append, afterKeyword?, if_neg (by simp [hunfit c hlower])]

theorem head?_text (w : SpelledWord k) {c : Char} (hk : k ≠ []) (hc : some c.toLower ≠ k.head?) (s : List Char) :
    (w.text ++ s).head? ≠ some c := by
  intro hhead
  obtain ⟨d, r, hletters⟩ := List.exists_cons_of_ne_nil (w.letters_ne hk)
  rw [text, hletters] at hhead
  obtain rfl : d = c := Option.some.inj hhead
  have hspelled : InAnyCase k (d :: r) := hletters ▸ w.spelled
  exact hc (hspelled ▸ rfl)

theorem not_mem_text (w : SpelledWord k) {c : Char} (hc : isBlank c = false ∨ c = '\n') (hlower : c.toLower ∉ k) :
    c ∉ w.text := by
  intro hmem
  rcases List.mem_append.1 hmem with hmem | hmem
  · exact hlower (w.spelled ▸ List.mem_map_of_mem hmem)
  · exact w.gap.not_mem hc hmem

end SpelledWord

/-! ## Classes -/

/-- The header of a class: the word, a name without blanks, and a colon. -/
structure ClassHeader where
  indent : Gap
  keyword : SpelledWord classWord
  name : List Char
  beforeColon : Gap
  name_ne : name ≠ []
  name_noBlank : NoBlank name

namespace ClassHeader

/-- The header `class name:` at the start of its line. -/
def ofName (name : List Char) (hne : name ≠ []) (hblank : NoBlank name) : ClassHeader where
  indent := ⟨[], by decide, by decide⟩
  keyword := .single classWord (by decide)
  name := name
  beforeColon := ⟨[], by decide, by decide⟩
  name_ne := hne
  name_noBlank := hblank

def text (h : ClassHeader) : List Char :=
  h.indent.chars ++ (h.keyword.text ++ (h.name ++ (h.beforeColon.chars ++ [':'])))

/-- The name is read whole: the colon after it is the last one. -/
theorem headedName?_name (h : ClassHeader) : headedName? (h.name ++ (h.beforeColon.chars ++ [':'])) = some h.name := by
  unfold headedName?
  cases hgap : h.beforeColon.chars with
  | nil =>
    have hblank : NoBlank (h.name ++ [':']) := by
      intro c hc
      rcases List.mem_append.1 hc with hc | hc
      · exact h.name_noBlank c hc
      · rw [List.mem_singleton.1 hc]
        decide
    have hword : word (h.name ++ [':']) = h.name ++ [':'] := by
      simpa using word_word_append hblank (r := []) rfl
    have hafter : afterWord (h.name ++ [':']) = [] := by
      rw [← List.append_nil (h.name ++ [':']), afterWord_word_append hblank]
      rfl
    have hcut : splitLast? ':' (h.name ++ [':']) = some (h.name, []) := splitLast?_append_cons (by simp)
    rw [List.nil_append]
    simp [hword, hafter, hcut, trimLeft, h.name_ne]
  | cons c ws =>
    have hblanks : AllBlank (c :: ws) := hgap ▸ h.beforeColon.allBlank
    have hstart : startsBlank (c :: ws ++ [':']) = true := hblanks c List.mem_cons_self
    have hword : word (h.name ++ (c :: ws ++ [':'])) = h.name := word_word_append h.name_noBlank (word_eq_nil hstart)
    have hafter : trimLeft (afterWord (h.name ++ (c :: ws ++ [':']))) = [':'] := by
      rw [afterWord_word_append h.name_noBlank, afterWord_eq_self (word_eq_nil hstart), trimLeft_append_left hblanks]
      rfl
    simp only [hword, hafter]
    simp [h.name_ne]

theorem trimLeft_text (h : ClassHeader) :
    trimLeft h.text = h.keyword.text ++ (h.name ++ (h.beforeColon.chars ++ [':'])) := by
  unfold text
  rw [trimLeft_append_left h.indent.allBlank, h.keyword.trimLeft_text (by decide) (by decide)]

/-- The header of a class is read as the class. -/
theorem className?_text (h : ClassHeader) : className? h.text = some h.name := by
  have hname : startsBlank (h.name ++ (h.beforeColon.chars ++ [':'])) = false :=
    startsBlank_word_append h.name_ne h.name_noBlank _
  rw [className?, h.trimLeft_text, headerAt?, h.keyword.afterKeyword?_text]
  simp only [h.keyword.startsBlank_gap, if_true]
  rw [trimLeft_append_left h.keyword.gap.allBlank, trimLeft_eq_self hname]
  exact h.headedName?_name

/-- What is in a header is in its name, in its word, or its colon; a line break is in none of its blanks. -/
theorem not_mem_text (h : ClassHeader) {c : Char} (hc : isBlank c = false ∨ c = '\n') (hlower : c.toLower ∉ classWord)
    (hcolon : c ≠ ':') (hname : c ∉ h.name) : c ∉ h.text := by
  simp only [text, List.mem_append, List.mem_singleton, not_or]
  exact ⟨h.indent.not_mem hc, h.keyword.not_mem_text hc hlower, hname, h.beforeColon.not_mem hc, hcolon⟩

theorem inLine (h : ClassHeader) : '\n' ∉ h.text := by
  refine h.not_mem_text (.inr rfl) (by decide) (by decide) ?_
  intro hmem
  exact absurd (h.name_noBlank _ hmem) (by decide)

end ClassHeader

/-! ## Methods -/

/-- The declaration of a method: the words, of which `public` may be missing, a name without blanks and opening
parentheses, and an empty list of parameters. -/
structure MethodDeclaration where
  indent : Gap
  keyword : SpelledWord methodWord
  access : Option (SpelledWord publicWord)
  result : SpelledWord voidWord
  name : List Char
  indent_ne : indent.chars ≠ []
  name_ne : name ≠ []
  name_noBlank : NoBlank name
  name_noParen : '(' ∉ name

namespace MethodDeclaration

/-- The name and what follows it. -/
def signature (d : MethodDeclaration) : List Char := d.name ++ ['(', ')', ':']

/-- The word for access and its blanks, if it is there. -/
def accessText (d : MethodDeclaration) : List Char := (d.access.map SpelledWord.text).getD []

def text (d : MethodDeclaration) : List Char :=
  d.indent.chars ++ (d.keyword.text ++ (d.accessText ++ (d.result.text ++ d.signature)))

variable (d : MethodDeclaration)

/-- What is in a declaration is in its name, in one of its words, or in the parameters. -/
theorem not_mem_text {c : Char} (hc : isBlank c = false ∨ c = '\n')
    (hlower : c.toLower ∉ methodWord ++ publicWord ++ voidWord) (hparameters : c ∉ ['(', ')', ':']) (hname : c ∉ d.name) :
    c ∉ d.text := by
  simp only [List.mem_append, not_or] at hlower
  obtain ⟨⟨hmethod, hpublic⟩, hvoid⟩ := hlower
  have haccess : c ∉ d.accessText := by
    unfold accessText
    cases d.access with
    | none => exact List.not_mem_nil
    | some access => exact access.not_mem_text hc hpublic
  simp only [text, signature, List.mem_append, not_or]
  exact ⟨d.indent.not_mem hc, d.keyword.not_mem_text hc hmethod, haccess, d.result.not_mem_text hc hvoid, hname,
    hparameters⟩

theorem startsBlank_signature : startsBlank d.signature = false := startsBlank_word_append d.name_ne d.name_noBlank _

theorem startsBlank_afterKeyword : startsBlank (d.accessText ++ (d.result.text ++ d.signature)) = false := by
  unfold accessText
  cases d.access with
  | none => exact d.result.startsBlank_text (by decide) (by decide) _
  | some access => exact access.startsBlank_text (by decide) (by decide) _

theorem skipPublic_eq_self {s : List Char} (h : afterKeyword? anyCase publicWord s = none) : skipPublic s = s := by
  unfold skipPublic
  rw [h]

theorem skipPublic_text (w : SpelledWord publicWord) (s : List Char) : skipPublic (w.text ++ s) = trimLeft s := by
  unfold skipPublic
  rw [w.afterKeyword?_text]
  exact trimLeft_append_left w.gap.allBlank s

/-- The words are passed over up to the name. -/
theorem afterMethodWords?_words :
    afterMethodWords? (d.keyword.text ++ (d.accessText ++ (d.result.text ++ d.signature))) = some d.signature := by
  have hresult : (afterKeyword? anyCase voidWord (d.result.text ++ d.signature)).map trimLeft = some d.signature := by
    rw [d.result.afterKeyword?_text, Option.map_some, trimLeft_append_left d.result.gap.allBlank,
      trimLeft_eq_self d.startsBlank_signature]
  have hunfit : ∀ c : Char, c.toLower = 'v' → anyCase 'p' c = false := fun c hc =>
    anyCase_eq_false hc (by decide) (by decide) (by decide)
  have hpublic : skipPublic (d.accessText ++ (d.result.text ++ d.signature)) = d.result.text ++ d.signature := by
    unfold accessText
    cases d.access with
    | none => exact skipPublic_eq_self (d.result.afterKeyword?_text_eq_none _ rfl rfl hunfit)
    | some access => exact (skipPublic_text access _).trans (d.result.trimLeft_text (by decide) (by decide) _)
  unfold afterMethodWords?
  rw [d.keyword.afterKeyword?_text]
  simp only [d.keyword.startsBlank_gap, if_true]
  rw [trimLeft_append_left d.keyword.gap.allBlank, trimLeft_eq_self d.startsBlank_afterKeyword, hpublic, hresult]

/-! ### The name -/

/-- A name of at least two characters is read whole. -/
theorem methodName?_signature : methodName? d.signature = if 2 ≤ d.name.length then some d.name else none := by
  unfold signature
  cases hname : d.name with
  | nil => exact absurd hname d.name_ne
  | cons c r =>
    have hcontinues : ∀ e ∈ r, continuesName e = true := by
      intro e he
      have hmem : e ∈ d.name := hname ▸ List.mem_cons_of_mem c he
      have hparen : e ≠ '(' := by
        rintro rfl
        exact d.name_noParen hmem
      simp [continuesName, d.name_noBlank e hmem, hparen]
    have hrun : (r ++ ['(', ')', ':']).takeWhile continuesName = r := by
      rw [List.takeWhile_append_of_pos hcontinues]
      exact List.append_nil r
    rw [List.cons_append, methodName?, hrun]
    cases r <;> simp

/-- The declaration whose blanks start the line. -/
theorem methodAt?_text :
    methodAt? d.text = if 2 ≤ d.name.length then some ⟨d.name, d.text.length - 3⟩ else none := by
  have hwords : startsBlank (d.keyword.text ++ (d.accessText ++ (d.result.text ++ d.signature))) = false :=
    d.keyword.startsBlank_text (by decide) (by decide) _
  have hlength : d.text.length - d.signature.length + d.name.length = d.text.length - 3 := by
    simp only [text, signature, List.length_append, List.length_cons, List.length_nil]
    omega
  unfold methodAt?
  conv_lhs => unfold text
  rw [trimLeft_append_left d.indent.allBlank, trimLeft_eq_self hwords, d.afterMethodWords?_words]
  simp only [d.methodName?_signature]
  split
  · exact congrArg (fun length => some (⟨d.name, length⟩ : MethodHeader)) hlength
  · rfl

/-! ### Further declarations on the line -/

section

variable {s w ws : List Char} {inBlanks : Bool}

theorem methodFrom?_noBlank_append (h : NoBlank w) : methodFrom? false (w ++ s) = methodFrom? false s := by
  induction w with
  | nil => rfl
  | cons c w ih =>
    have hc : isBlank c = false := h c List.mem_cons_self
    rw [List.cons_append, methodFrom?_cons, hc]
    exact ih fun e he => h e (List.mem_cons_of_mem c he)

theorem methodFrom?_word_append (hne : w ≠ []) (h : NoBlank w) : methodFrom? inBlanks (w ++ s) = methodFrom? false s := by
  cases w with
  | nil => exact absurd rfl hne
  | cons c w =>
    have hc : isBlank c = false := h c List.mem_cons_self
    rw [List.cons_append, methodFrom?_cons, hc]
    exact methodFrom?_noBlank_append fun e he => h e (List.mem_cons_of_mem c he)

theorem methodFrom?_blanks_append (h : AllBlank ws) : methodFrom? true (ws ++ s) = methodFrom? true s := by
  induction ws with
  | nil => rfl
  | cons c ws ih =>
    have hc : isBlank c = true := h c List.mem_cons_self
    rw [List.cons_append, methodFrom?_cons, hc]
    exact ih fun e he => h e (List.mem_cons_of_mem c he)

/-- Blanks that no declaration follows are passed over. -/
theorem methodFrom?_gap_append (hne : ws ≠ []) (h : AllBlank ws) (hnone : methodAt? (ws ++ s) = none) :
    methodFrom? false (ws ++ s) = methodFrom? true s := by
  cases ws with
  | nil => exact absurd rfl hne
  | cons c ws =>
    have hc : isBlank c = true := h c List.mem_cons_self
    rw [List.cons_append] at hnone
    rw [List.cons_append, methodFrom?_cons, hc, hnone]
    exact methodFrom?_blanks_append fun e he => h e (List.mem_cons_of_mem c he)

theorem methodAt?_eq_none (h : AllBlank ws) (hs : startsBlank s = false)
    (hnone : afterKeyword? anyCase methodWord s = none) : methodAt? (ws ++ s) = none := by
  unfold methodAt? afterMethodWords?
  rw [trimLeft_append_left h, trimLeft_eq_self hs, hnone]

/-- A word and its blanks are passed over before another word than `method`. -/
theorem methodFrom?_text_append {k : List Char} (word : SpelledWord k) (hk : k ≠ []) (hblank : NoBlank k)
    (hs : startsBlank s = false) (hnone : afterKeyword? anyCase methodWord s = none) :
    methodFrom? inBlanks (word.text ++ s) = methodFrom? true s := by
  have hgap : methodAt? (word.gap.chars ++ s) = none := methodAt?_eq_none word.gap.allBlank hs hnone
  unfold SpelledWord.text
  rw [List.append_assoc, methodFrom?_word_append (word.letters_ne hk) (word.spelled.noBlank hblank),
    methodFrom?_gap_append word.gap_ne word.gap.allBlank hgap]

end

/-- Below the keyword no further declaration starts. -/
theorem methodFrom?_afterKeyword (h : ¬ 2 ≤ d.name.length) :
    methodFrom? true (d.accessText ++ (d.result.text ++ d.signature)) = none := by
  have hsignature : NoBlank d.signature := by
    intro c hc
    rcases List.mem_append.1 hc with hc | hc
    · exact d.name_noBlank c hc
    · have hall : NoBlank ['(', ')', ':'] := by decide
      exact hall c hc
  have hnone : afterKeyword? anyCase methodWord d.signature = none := by
    obtain ⟨c, hname⟩ : ∃ c, d.name = [c] := by
      have hpos : 0 < d.name.length := List.length_pos_iff.2 d.name_ne
      exact List.length_eq_one_iff.1 (by omega)
    unfold signature methodWord
    rw [hname, List.singleton_append, afterKeyword?]
    split <;> rfl
  have hresult : methodFrom? true (d.result.text ++ d.signature) = none := by
    have hne : d.signature ≠ [] := List.append_ne_nil_of_left_ne_nil d.name_ne _
    rw [methodFrom?_text_append d.result (by decide) (by decide) d.startsBlank_signature hnone,
      ← List.append_nil d.signature, methodFrom?_word_append hne hsignature]
    rfl
  unfold accessText
  cases d.access with
  | none => exact hresult
  | some access =>
    have hvoid : afterKeyword? anyCase methodWord (d.result.text ++ d.signature) = none :=
      d.result.afterKeyword?_text_eq_none _ rfl rfl fun c hc =>
        anyCase_eq_false hc (by decide) (by decide) (by decide)
    have hblank := d.result.startsBlank_text (by decide) (by decide) d.signature
    exact (methodFrom?_text_append access (by decide) (by decide) hblank hvoid).trans hresult

theorem afterKeyword?_access :
    afterKeyword? anyCase methodWord (d.accessText ++ (d.result.text ++ d.signature)) = none := by
  unfold accessText
  cases d.access with
  | none =>
    exact d.result.afterKeyword?_text_eq_none _ rfl rfl fun c hc =>
      anyCase_eq_false hc (by decide) (by decide) (by decide)
  | some access =>
    exact access.afterKeyword?_text_eq_none _ rfl rfl fun c hc =>
      anyCase_eq_false hc (by decide) (by decide) (by decide)

/-- The declaration is the one whose blanks start the line, or there is none. -/
theorem method?_text : method? d.text = if 2 ≤ d.name.length then some ⟨d.name, d.text.length - 3⟩ else none := by
  have hhere := d.methodAt?_text
  split at hhere
  · next hlong =>
    have hstart : methodAtRun? false d.text = methodAt? d.text := by
      unfold methodAtRun? text
      rw [startsBlank_append d.indent_ne d.indent.allBlank]
      rfl
    rw [if_pos hlong, method?, methodFrom?_eq_leftmost]
    refine Text.leftmost_eq_some_iff.2 ⟨[], _, rfl, ?_, hstart.trans hhere, ?_⟩
    · exact List.append_ne_nil_of_left_ne_nil d.indent_ne _
    · exact fun _ _ _ hshort => absurd hshort (Nat.not_lt_zero _)
  · next hshort =>
    unfold text at hhere
    rw [if_neg hshort, method?, text, methodFrom?_gap_append d.indent_ne d.indent.allBlank hhere,
      methodFrom?_text_append d.keyword (by decide) (by decide) d.startsBlank_afterKeyword d.afterKeyword?_access,
      d.methodFrom?_afterKeyword hshort]

end MethodDeclaration

end TestDiscovery.Grammar
