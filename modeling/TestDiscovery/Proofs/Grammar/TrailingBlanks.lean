-- SUMMARY: Blanks after a line change nothing that is read from it.
import TestDiscovery.Grammar.Assertion
import TestDiscovery.Proofs.Grammar.Marker
import TestDiscovery.Proofs.Grammar.Method

/-!
# Blanks after a line

A header ends with a colon, a method with a name, an assertion and an annotation with a parenthesis, and no keyword has
a blank in it. So each of them is read as well with blanks after the line, at the same place and of the same length, and
blanks alone are never read as one.
-/

namespace TestDiscovery.Grammar

open Text

variable {s line ws : List Char}

theorem isCommentLine_append (h : AllBlank ws) : isCommentLine (line ++ ws) = isCommentLine line := by
  unfold isCommentLine
  rw [trim_append h]

/-! ## Headers -/

theorem headedName?_append (h : AllBlank ws) : headedName? (s ++ ws) = headedName? s := by
  unfold headedName?
  rw [word_append h, afterWord_append h, trimLeft_append h, head?_padded]

theorem headedName?_padded (h : AllBlank ws) : headedName? (padded ws s) = headedName? s := by
  cases s with
  | nil => rfl
  | cons c r => exact headedName?_append (s := c :: r) h

section

variable {word : List Char}

theorem headerAt?_append (hword : NoBlank word) (h : AllBlank ws) :
    headerAt? word (s ++ ws) = headerAt? word s := by
  unfold headerAt?
  rw [afterKeyword?_append keepsBlanks_anyCase hword h]
  cases afterKeyword? anyCase word s with
  | none => rfl
  | some r =>
    simp only [Option.map_some]
    rw [trimLeft_append h, headedName?_padded h]
    cases r with
    | nil => simp [startsBlank, trimLeft, headedName?, Text.word]
    | cons c r => rfl

theorem headerAt?_padded (hword : NoBlank word) (h : AllBlank ws) :
    headerAt? word (padded ws s) = headerAt? word s := by
  cases s with
  | nil => rfl
  | cons c r => exact headerAt?_append (s := c :: r) hword h

end

theorem className?_append (h : AllBlank ws) : className? (line ++ ws) = className? line := by
  unfold className?
  rw [trimLeft_append h]
  exact headerAt?_padded (by decide) h

theorem procedureName?_append (h : AllBlank ws) : procedureName? (line ++ ws) = procedureName? line := by
  unfold procedureName?
  rw [procedureFrom?_eq_leftmost, procedureFrom?_eq_leftmost]
  refine leftmost_append (fun fresh => ite_self none) ?_ h
  intro fresh s ws h
  unfold procedureAt?
  rw [headerAt?_append (by decide) h]

/-! ## Methods -/

theorem methodName?_padded (h : AllBlank ws) : methodName? (padded ws s) = methodName? s := by
  cases s with
  | nil => rfl
  | cons c r =>
    have hrun : (r ++ ws).takeWhile continuesName = r.takeWhile continuesName :=
      takeWhile_append_of_stop fun d hd => by simp [continuesName, h d hd]
    rw [padded_cons, methodName?, methodName?, hrun]

theorem skipPublic_padded (h : AllBlank ws) : skipPublic (padded ws s) = padded ws (skipPublic s) := by
  unfold skipPublic
  rw [afterKeyword?_padded keepsBlanks_anyCase (by decide) (by decide) h]
  cases afterKeyword? anyCase publicWord s with
  | none => rfl
  | some r => exact trimLeft_append h

theorem afterMethodWords?_padded (h : AllBlank ws) :
    afterMethodWords? (padded ws s) = (afterMethodWords? s).map (padded ws) := by
  unfold afterMethodWords?
  rw [afterKeyword?_padded keepsBlanks_anyCase (by decide) (by decide) h]
  cases afterKeyword? anyCase methodWord s with
  | none => rfl
  | some r =>
    have hvoid : (afterKeyword? anyCase voidWord (skipPublic (trimLeft (r ++ ws)))).map trimLeft =
        ((afterKeyword? anyCase voidWord (skipPublic (trimLeft r))).map trimLeft).map (padded ws) := by
      rw [trimLeft_append h, skipPublic_padded h, afterKeyword?_padded keepsBlanks_anyCase (by decide) (by decide) h,
        Option.map_map, Option.map_map]
      congr 1
      funext rest
      exact trimLeft_append h
    simp only [Option.map_some]
    rw [hvoid]
    cases r with
    | nil => exact ite_self none
    | cons c r =>
      change (if isBlank c then _ else _) = Option.map _ (if isBlank c then _ else _)
      cases isBlank c <;> rfl

theorem methodAt?_append (h : AllBlank ws) : methodAt? (s ++ ws) = methodAt? s := by
  unfold methodAt?
  rw [trimLeft_append h, afterMethodWords?_padded h]
  cases hwords : afterMethodWords? (trimLeft s) with
  | none => rfl
  | some r =>
    simp only [Option.map_some]
    rw [methodName?_padded h]
    cases r with
    | nil => rfl
    | cons c r =>
      have hlength : (s ++ ws).length - (padded ws (c :: r)).length = s.length - (c :: r).length := by
        simp only [padded_cons, List.length_cons, List.length_append]
        omega
      rw [hlength]

theorem method?_append (h : AllBlank ws) : method? (line ++ ws) = method? line := by
  unfold method?
  rw [methodFrom?_eq_leftmost, methodFrom?_eq_leftmost]
  refine leftmost_append (fun inBlanks => rfl) ?_ h
  intro inBlanks s ws h
  unfold methodAtRun?
  rw [methodAt?_append h]
  cases s with
  -- The blanks are a run of their own here, but no declaration follows it.
  | nil => exact (ite_self none).trans rfl
  | cons c r => rfl

/-! ## Assertions -/

theorem afterAssertion?_append (h : AllBlank ws) :
    afterAssertion? (s ++ ws) = (afterAssertion? s).map (· ++ ws) := by
  unfold afterAssertion?
  rw [afterKeyword?_append keepsBlanks_anyCase (by decide) h]
  cases afterKeyword? anyCase assertWord s with
  | none => rfl
  | some r =>
    have hstop : ∀ c ∈ ws, inAssertName c = false := fun c hc => by simp [inAssertName, h c hc]
    simp only [Option.map_some]
    rw [takeWhile_append_of_stop hstop, dropWhile_append_of_stop hstop, trimLeft_append h]
    split
    · rfl
    · cases trimLeft (r.dropWhile inAssertName) with
      | nil => rfl
      | cons c arguments =>
        by_cases hopen : c = '('
        · subst hopen
          have hclose : ')' ∉ ws := h.not_mem (by decide)
          change (splitLast? ')' (arguments ++ ws)).map _ = ((splitLast? ')' arguments).map _).map _
          rw [splitLast?_append hclose, Option.map_map, Option.map_map]
          rfl
        · simp [hopen]

/-- The assertion that starts the text in column `column`. -/
def assertionAt? (column : Nat) (s : List Char) : Option (Nat × List Char) :=
  (afterAssertion? s).map fun rest => (column, s.take (s.length - rest.length))

theorem assertionFrom?_eq_leftmost (column : Nat) (s : List Char) :
    assertionFrom? column s = leftmost assertionAt? (fun column _ => column + 1) column s := by
  induction s generalizing column with
  | nil => rfl
  | cons c r ih =>
    rw [assertionFrom?, leftmost, ← ih]
    unfold assertionAt?
    cases afterAssertion? (c :: r) <;> rfl

theorem assertionAt?_append {column : Nat} (h : AllBlank ws) :
    assertionAt? column (s ++ ws) = assertionAt? column s := by
  unfold assertionAt?
  rw [afterAssertion?_append h]
  cases afterAssertion? s with
  | none => rfl
  | some rest =>
    have hcount : (s ++ ws).length - (rest ++ ws).length = s.length - rest.length := by
      simp only [List.length_append]
      omega
    simp only [Option.map_some]
    rw [hcount, List.take_append_of_le_length (Nat.sub_le _ _)]

theorem assertion?_append (h : AllBlank ws) : assertion? (line ++ ws) = assertion? line := by
  unfold assertion?
  rw [assertionFrom?_eq_leftmost, assertionFrom?_eq_leftmost]
  exact leftmost_append (fun column => rfl) (fun column s ws h => assertionAt?_append h) h

/-! ## Annotations -/

section

variable {fits : Text.Fits}

theorem parametersAt?_append (hfits : KeepsBlanks fits) (h : AllBlank ws) :
    parametersAt? fits (s ++ ws) = parametersAt? fits s := by
  unfold parametersAt?
  rw [afterKeyword?_append hfits (by decide) h]
  cases afterKeyword? fits annotationWord s with
  | none => rfl
  | some inner =>
    have hclose : ')' ∉ ws.takeWhile (· != '\n') := fun hmem =>
      h.not_mem (c := ')') (by decide) ((List.takeWhile_prefix _).subset hmem)
    simp only [Option.map_some, Option.bind_some]
    rw [List.takeWhile_append]
    split
    · next hall =>
      rw [splitLast?_append hclose, Option.map_map, (List.takeWhile_prefix _).eq_of_length hall]
      rfl
    · rfl

theorem parameters?_append (hfits : KeepsBlanks fits) (h : AllBlank ws) :
    parameters? fits (s ++ ws) = parameters? fits s := by
  rw [parameters?_eq_leftmost, parameters?_eq_leftmost]
  exact leftmost_append (fun _ => rfl) (fun _ s ws h => parametersAt?_append hfits h) h

theorem columnOf_append {name : List Char} (hname : name <:+: line) :
    columnOf name (line ++ ws) = columnOf name line := by
  unfold columnOf
  rw [indexOf?_append_left hname]

theorem suiteMembers_append (hfits : KeepsBlanks fits) (n : Int) (h : AllBlank ws) :
    suiteMembers fits n (line ++ ws) = suiteMembers fits n line := by
  unfold suiteMembers
  rw [parameters?_append hfits h]
  cases hinside : parameters? fits line with
  | none => rfl
  | some inside =>
    have hmembers : ∀ a ∈ (firstAttribute? inside).toList ++ (furtherAttribute? inside).toList,
        a.members n (line ++ ws) = a.members n line := by
      intro a ha
      refine List.map_congr_left fun name hname => ?_
      unfold Attribute.member
      rw [columnOf_append (infix_of_mem_attribute hinside ha hname)]
    simp only [List.flatMap_def, List.map_congr_left hmembers]

end

end TestDiscovery.Grammar
