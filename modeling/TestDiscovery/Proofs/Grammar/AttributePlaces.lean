-- SUMMARY: Where the two attributes of an annotation stand, and when no part of the annotation is read twice.
import TestDiscovery.Proofs.Grammar.Spelling

/-!
# The two attributes of an annotation

The first attribute of the parameters and the first one behind a comma are searched for apart from each other, each from
the start. The further attribute cannot start before the first one, so there are three places for it. It stands behind
the first attribute; or it is the first attribute once more, with a comma in front of it; or its comma and its word end
the value of the first attribute, whose closing quote then opens its own value.
-/

namespace TestDiscovery.Grammar

open Text

variable {s before after before' after' line inside : List Char} {a b : Attribute} {fits : Fits}

/-! ## Where they are found -/

theorem attributeAfterComma?_eq_some_iff :
    attributeAfterComma? s = some a ↔ a.Wellformed ∧ ∃ after, s = ',' :: (a.text ++ after) := by
  cases s with
  | nil => simp [attributeAfterComma?]
  | cons c r => by_cases hc : c = ',' <;> simp [attributeAfterComma?, hc, attributeAt?_eq_some_iff]

/-- The first attribute of a text, and where it stands. -/
def FirstAt (s before : List Char) (a : Attribute) (after : List Char) : Prop :=
  LeftmostAt (fun _ => attributeAt?) (fun _ _ => ()) () s before (a.text ++ after) a

/-- The first attribute behind a comma, and where it stands with its comma. -/
def FurtherAt (s before : List Char) (a : Attribute) (after : List Char) : Prop :=
  LeftmostAt (fun _ => attributeAfterComma?) (fun _ _ => ()) () s before (',' :: (a.text ++ after)) a

theorem firstAttribute?_eq_some_iff : firstAttribute? s = some a ↔ ∃ before after, FirstAt s before a after := by
  rw [firstAttribute?_eq_leftmost, leftmost_eq_some_iff]
  constructor
  · rintro ⟨before, rest, hleftmost⟩
    obtain ⟨-, after, rfl⟩ := attributeAt?_eq_some_iff.1 hleftmost.here
    exact ⟨before, after, hleftmost⟩
  · rintro ⟨before, after, hleftmost⟩
    exact ⟨before, _, hleftmost⟩

theorem furtherAttribute?_eq_some_iff : furtherAttribute? s = some a ↔ ∃ before after, FurtherAt s before a after := by
  rw [furtherAttribute?_eq_leftmost, leftmost_eq_some_iff]
  constructor
  · rintro ⟨before, rest, hleftmost⟩
    obtain ⟨-, after, rfl⟩ := attributeAfterComma?_eq_some_iff.1 hleftmost.here
    exact ⟨before, after, hleftmost⟩
  · rintro ⟨before, after, hleftmost⟩
    exact ⟨before, _, hleftmost⟩

theorem FirstAt.wellformed (h : FirstAt s before a after) : a.Wellformed := (attributeAt?_eq_some_iff.1 h.here).1

theorem FurtherAt.wellformed (h : FurtherAt s before a after) : a.Wellformed :=
  (attributeAfterComma?_eq_some_iff.1 h.here).1

/-- No attribute stands before the first one. -/
theorem FirstAt.le (h : FirstAt s before a after) (hb : b.Wellformed) (hsplit : s = before' ++ (b.text ++ after')) :
    before.length ≤ before'.length :=
  LeftmostAt.le h hsplit (attributeAt?_eq_some_iff.2 ⟨hb, after', rfl⟩)

theorem FurtherAt.le (h : FurtherAt s before a after) (hb : b.Wellformed)
    (hsplit : s = before' ++ ',' :: (b.text ++ after')) : before.length ≤ before'.length :=
  LeftmostAt.le h hsplit (attributeAfterComma?_eq_some_iff.2 ⟨hb, after', rfl⟩)

/-! ## How they stand to each other -/

/-- The value of an attribute ends with what opens another attribute behind a comma. The quote that closes the value
then opens the value of that attribute. -/
def Attribute.RunsOn (a : Attribute) : Prop := ∃ v w, AttributeWord w ∧ a.value = v ++ ',' :: (w ++ ['='])

/-- An attribute behind a comma that starts within another attribute starts in its value, and takes the rest of it. -/
theorem value_of_starts_within (ha : a.Wellformed) (hb : b.Wellformed) (hwithin : before.length < a.text.length)
    (hsplit : a.text ++ after = before ++ ',' :: (b.text ++ after')) :
    ∃ v, before = a.word ++ '=' :: '"' :: v ∧ a.value = v ++ ',' :: (b.word ++ ['=']) ∧
      after = b.value ++ '"' :: after' := by
  -- The comma stands behind the opening quote, since the word has none.
  have hopening : ',' ∉ a.word ++ ['=', '"'] := by simpa using ha.word.not_mem (c := ',') (by simp)
  have hvalue : (a.word ++ ['=', '"']) ++ (a.value ++ '"' :: after) = before ++ ',' :: (b.text ++ after') := by
    simpa [a.text_append] using hsplit
  obtain ⟨v, rfl, hrest⟩ := cut_behind hopening hvalue
  -- It stands before the closing quote, which is the first one behind it.
  obtain ⟨m, hm⟩ : v <+: a.value := by
    refine List.prefix_of_prefix_length_le ⟨_, hrest.symm⟩ ⟨_, rfl⟩ ?_
    simp only [List.length_append, List.length_cons, List.length_nil, Attribute.length_text] at hwithin
    omega
  rw [← hm, List.append_assoc, List.append_right_inj] at hrest
  obtain ⟨w, rfl, hafter⟩ : ∃ w, m = ',' :: w ∧ w ++ '"' :: after = b.text ++ after' := by
    cases m with
    | nil => exact absurd (List.cons.inj hrest).1 (by decide)
    | cons c w => exact ⟨w, by rw [(List.cons.inj hrest).1], (List.cons.inj hrest).2⟩
  have hclosing : '"' ∉ w := fun hmem => ha.value (hm ▸ by simp [hmem])
  have hword : '"' ∉ b.word ++ ['='] := by simpa using hb.word.not_mem (c := '"') (by simp)
  have hcut : w ++ '"' :: after = (b.word ++ ['=']) ++ '"' :: (b.value ++ '"' :: after') := by
    simpa [b.text_append] using hafter
  obtain ⟨rfl, rfl⟩ := cut_unique hclosing hword hcut
  exact ⟨v, by simp, hm.symm, rfl⟩

/-- The three places of the further attribute. -/
inductive Placement (before : List Char) (a : Attribute) (after before' : List Char) (b : Attribute)
    (after' : List Char) : Prop
  | again (hbefore : before = before' ++ [',']) (hattribute : b = a) (hafter : after' = after)
  | within (v : List Char) (hbefore : before' = before ++ (a.word ++ '=' :: '"' :: v))
      (hvalue : a.value = v ++ ',' :: (b.word ++ ['='])) (hafter : after = b.value ++ '"' :: after')
  | behind (between : List Char) (hbefore : before' = before ++ (a.text ++ between))
      (hafter : after = between ++ ',' :: (b.text ++ after'))

/-- The opening of an attribute within another one ends where the other one ends. -/
theorem length_of_within {v : List Char} (hbefore : before' = before ++ (a.word ++ '=' :: '"' :: v))
    (hvalue : a.value = v ++ ',' :: (b.word ++ ['='])) :
    before'.length + b.word.length + 3 = before.length + a.text.length := by
  simp only [hbefore, hvalue, Attribute.length_text, List.length_append, List.length_cons, List.length_nil]
  omega

/-- The attribute behind a comma is the first one, if the comma stands right before the first one. -/
theorem FirstAt.same_of_comma (ha : FirstAt inside before a after) (hb : FurtherAt inside before' b after')
    (hbefore : before = before' ++ [',']) : b = a ∧ after' = after := by
  have hsplit : before ++ (a.text ++ after) = before ++ (b.text ++ after') := by
    rw [← ha.split, hb.split, hbefore, List.append_assoc, List.singleton_append]
  obtain ⟨hattribute, hafter⟩ := Attribute.text_append_inj ha.wellformed hb.wellformed (List.append_cancel_left hsplit)
  exact ⟨hattribute.symm, hafter.symm⟩

theorem FirstAt.placement (ha : FirstAt inside before a after) (hb : FurtherAt inside before' b after') :
    Placement before a after before' b after' := by
  have hcomma : inside = (before' ++ [',']) ++ (b.text ++ after') := by simpa using hb.split
  have hlength : before.length ≤ before'.length + 1 := by simpa using ha.le hb.wellformed hcomma
  have hsplit : before ++ (a.text ++ after) = before' ++ ',' :: (b.text ++ after') := ha.split.symm.trans hb.split
  by_cases hlater : before.length ≤ before'.length
  · obtain ⟨m, rfl⟩ : before <+: before' :=
      List.prefix_of_prefix_length_le ⟨_, rfl⟩ ⟨_, hsplit.symm⟩ hlater
    rw [List.append_assoc, List.append_right_inj] at hsplit
    by_cases hwithin : m.length < a.text.length
    · obtain ⟨v, rfl, hvalue, hafter⟩ := value_of_starts_within ha.wellformed hb.wellformed hwithin hsplit
      exact .within v rfl hvalue hafter
    · obtain ⟨between, rfl⟩ : a.text <+: m :=
        List.prefix_of_prefix_length_le ⟨_, rfl⟩ ⟨_, hsplit.symm⟩ (by omega)
      rw [List.append_assoc, List.append_right_inj] at hsplit
      exact .behind between rfl hsplit
  · have hequal : before.length = (before' ++ [',']).length := by
      simp only [List.length_append, List.length_singleton]
      omega
    obtain ⟨hbefore, -⟩ := List.append_inj (ha.split.symm.trans hcomma) hequal
    obtain ⟨hattribute, hafter⟩ := ha.same_of_comma hb hbefore
    exact .again hbefore hattribute hafter

/-- A comma right before the first attribute makes it the further one as well, so that nothing further starts behind. -/
theorem FurtherAt.lt_of_comma (hb : FurtherAt inside before' b after') (ha : FirstAt inside before a after)
    (hcomma : before.getLast? = some ',') : before'.length < before.length := by
  obtain ⟨front, rfl⟩ := List.getLast?_eq_some_iff.1 hcomma
  have hsplit : inside = front ++ ',' :: (a.text ++ after) := by simp [ha.split]
  have hle : before'.length ≤ front.length := hb.le ha.wellformed hsplit
  simp only [List.length_append, List.length_singleton]
  omega

/-- A value that runs on makes its end the further attribute, if a quote follows. -/
theorem FurtherAt.lt_of_runsOn (hb : FurtherAt inside before' b after') (ha : FirstAt inside before a after)
    (hruns : a.RunsOn) (hquote : '"' ∈ after) : before'.length < before.length + a.text.length := by
  obtain ⟨v, w, hw, hvalue⟩ := hruns
  obtain ⟨value, rest, rfl, hopen⟩ := List.eq_append_cons_of_mem hquote
  have hsplit : inside = (before ++ (a.word ++ '=' :: '"' :: v)) ++ ',' :: ((⟨w, value⟩ : Attribute).text ++ rest) := by
    simp [ha.split, hvalue, Attribute.text]
  have hle : before'.length ≤ (before ++ (a.word ++ '=' :: '"' :: v)).length := hb.le ⟨hw, hopen⟩ hsplit
  have hlength : a.value.length = v.length + (w.length + 2) := by simp [hvalue]
  simp only [List.length_append, List.length_cons, Attribute.length_text] at hle ⊢
  omega

/-- The further attribute stands behind the first one, except in two cases. -/
theorem FurtherAt.behind_iff (hb : FurtherAt inside before' b after') (ha : FirstAt inside before a after) :
    before.length + a.text.length ≤ before'.length ↔ before.getLast? ≠ some ',' ∧ ¬ a.RunsOn := by
  have hplacement := ha.placement hb
  constructor
  · intro hle
    constructor
    · intro hcomma
      have := hb.lt_of_comma ha hcomma
      omega
    · intro hruns
      cases hplacement with
      | again hbefore =>
        have hlength : before.length = before'.length + 1 := by simp [hbefore]
        omega
      | within v hbefore hvalue =>
        have hlength := length_of_within hbefore hvalue
        omega
      | behind between hbefore hafter =>
        have hlt := hb.lt_of_runsOn ha hruns (by simp [hafter, Attribute.text])
        omega
  · rintro ⟨hcomma, hruns⟩
    cases hplacement with
    | again hbefore => exact absurd (by simp [hbefore]) hcomma
    | within v hbefore hvalue => exact absurd ⟨v, b.word, hb.wellformed.word, hvalue⟩ hruns
    | behind between hbefore => simp [hbefore]

/-! ## Items -/

/-- The pieces of a list with the places where they start: the first at `start`, each other one behind the separator
after the one before. -/
def itemsFrom (start : Nat) : List (List Char) → List (Nat × List Char)
  | [] => []
  | piece :: pieces => (start, piece) :: itemsFrom (start + piece.length + 1) pieces

/-- The items of the value of an attribute that stands at `place`. -/
def Attribute.items (place : Nat) (a : Attribute) : List (Nat × List Char) :=
  itemsFrom (place + a.word.length + 2) (splitOn ',' a.value)

/-- One item ends before the other starts. -/
def EndsBefore (i j : Nat × List Char) : Prop := i.1 + i.2.length < j.1

theorem map_snd_itemsFrom (start : Nat) (pieces : List (List Char)) : (itemsFrom start pieces).map Prod.snd = pieces := by
  induction pieces generalizing start with
  | nil => rfl
  | cons piece pieces ih => rw [itemsFrom, List.map_cons, ih]

/-- The members of an attribute are those for its items. -/
theorem Attribute.members_eq_items (n : Int) (line : List Char) (place : Nat) (a : Attribute) :
    a.members n line = (a.items place).map fun i => a.member n line i.2 := by
  rw [members, items, ← map_snd_itemsFrom (place + a.word.length + 2) (splitOn ',' a.value), List.map_map,
    map_snd_itemsFrom]
  rfl

/-- Items lie within the list. -/
theorem bounds_of_mem_itemsFrom {start : Nat} {pieces : List (List Char)} {i : Nat × List Char}
    (h : i ∈ itemsFrom start pieces) : start ≤ i.1 ∧ i.1 + i.2.length ≤ start + (joinWith ',' pieces).length := by
  induction pieces generalizing start with
  | nil => cases h
  | cons piece pieces ih =>
    rcases List.mem_cons.1 h with rfl | h
    · refine ⟨le_rfl, ?_⟩
      cases pieces <;> simp [joinWith]
    · have hlength : (joinWith ',' (piece :: pieces)).length = piece.length + 1 + (joinWith ',' pieces).length :=
        length_joinWith_cons ',' piece (by rintro rfl; cases h)
      obtain ⟨hstart, hend⟩ := ih h
      omega

/-- Items stand at their places, wherever the list stands. -/
theorem prefix_of_mem_itemsFrom {pieces : List (List Char)} {i : Nat × List Char}
    (h : i ∈ itemsFrom before.length pieces) : i.2 <+: (before ++ (joinWith ',' pieces ++ after)).drop i.1 := by
  induction pieces generalizing before with
  | nil => cases h
  | cons piece pieces ih =>
    rcases List.mem_cons.1 h with rfl | h
    · rw [List.drop_left]
      cases pieces <;> simp [joinWith]
    · obtain ⟨next, pieces, rfl⟩ := List.exists_cons_of_ne_nil (l := pieces) (by rintro rfl; cases h)
      have hplace : (before ++ (piece ++ [','])).length = before.length + piece.length + 1 := by simp [Nat.add_assoc]
      have hnext := ih (hplace ▸ h)
      simpa [joinWith] using hnext

theorem pairwise_itemsFrom (start : Nat) (pieces : List (List Char)) : (itemsFrom start pieces).Pairwise EndsBefore := by
  induction pieces generalizing start with
  | nil => exact .nil
  | cons piece pieces ih =>
    refine .cons (fun i hi => ?_) (ih _)
    obtain ⟨hstart, -⟩ := bounds_of_mem_itemsFrom hi
    exact hstart

namespace Attribute

theorem bounds_of_mem_items {place : Nat} {i : Nat × List Char} (h : i ∈ a.items place) :
    place + a.word.length + 2 ≤ i.1 ∧ i.1 + i.2.length < place + a.text.length := by
  obtain ⟨hstart, hend⟩ := bounds_of_mem_itemsFrom h
  rw [joinWith_splitOn] at hend
  rw [length_text]
  omega

theorem prefix_of_mem_items {i : Nat × List Char} (h : i ∈ a.items before.length) :
    i.2 <+: (before ++ (a.text ++ after)).drop i.1 := by
  have hplace : (before ++ (a.word ++ ['=', '"'])).length = before.length + a.word.length + 2 := by simp [Nat.add_assoc]
  rw [items, ← hplace] at h
  have hprefix : i.2 <+: ((before ++ (a.word ++ ['=', '"'])) ++ (joinWith ',' (splitOn ',' a.value) ++ '"' :: after)).drop i.1 :=
    prefix_of_mem_itemsFrom h
  simpa [joinWith_splitOn, text] using hprefix

theorem pairwise_items (place : Nat) (a : Attribute) : (a.items place).Pairwise EndsBefore := pairwise_itemsFrom _ _

theorem items_ne_nil (place : Nat) (a : Attribute) : a.items place ≠ [] := by
  intro hnil
  have hpieces := map_snd_itemsFrom (place + a.word.length + 2) (splitOn ',' a.value)
  rw [← items, hnil] at hpieces
  exact splitOn_ne_nil ',' a.value hpieces.symm

end Attribute

/-- The items of the two attributes stand at their places. -/
theorem FurtherAt.prefix_of_mem_items (hb : FurtherAt inside before' b after') (ha : FirstAt inside before a after) :
    ∀ i ∈ a.items before.length ++ b.items (before'.length + 1), i.2 <+: inside.drop i.1 := by
  intro i hi
  rcases List.mem_append.1 hi with hi | hi
  · rw [ha.split]
    exact Attribute.prefix_of_mem_items hi
  · have hplace : (before' ++ [',']).length = before'.length + 1 := by simp
    have hsplit : inside = (before' ++ [',']) ++ (b.text ++ after') := by simpa using hb.split
    rw [hsplit]
    exact Attribute.prefix_of_mem_items (hplace ▸ hi)

/-- The items of the two attributes lie apart, unless they are the items of one attribute. -/
theorem FurtherAt.pairwise_items_iff (hb : FurtherAt inside before' b after') (ha : FirstAt inside before a after) :
    (a.items before.length ++ b.items (before'.length + 1)).Pairwise EndsBefore ↔ before.getLast? ≠ some ',' := by
  rw [List.pairwise_append]
  constructor
  · rintro ⟨-, -, hacross⟩ hcomma
    have hlt := hb.lt_of_comma ha hcomma
    cases ha.placement hb with
    | again hbefore hattribute =>
      obtain ⟨i, hi⟩ := List.exists_mem_of_ne_nil _ (a.items_ne_nil before.length)
      have hsame : i ∈ b.items (before'.length + 1) := by simpa [hbefore, hattribute] using hi
      have hself : i.1 + i.2.length < i.1 := hacross i hi i hsame
      omega
    | within v hbefore =>
      have hle : before.length ≤ before'.length := by simp [hbefore]
      omega
    | behind between hbefore =>
      have hle : before.length ≤ before'.length := by simp [hbefore]
      omega
  · intro hcomma
    refine ⟨a.pairwise_items _, b.pairwise_items _, fun i hi j hj => ?_⟩
    obtain ⟨-, hend⟩ := Attribute.bounds_of_mem_items hi
    obtain ⟨hstart, -⟩ := Attribute.bounds_of_mem_items hj
    refine lt_of_lt_of_le hend (le_trans ?_ hstart)
    cases ha.placement hb with
    | again hbefore => exact absurd (by simp [hbefore]) hcomma
    | within v hbefore hvalue =>
      have hlength := length_of_within hbefore hvalue
      omega
    | behind between hbefore =>
      simp only [hbefore, List.length_append]
      omega

/-! ## Members -/

/-- An attribute behind a comma makes sure that a further attribute is found. -/
theorem exists_furtherAt_of_comma (ha : a.Wellformed) :
    ∃ before' b after', FurtherAt (before ++ ',' :: (a.text ++ after)) before' b after' := by
  have hhere : attributeAfterComma? (',' :: (a.text ++ after)) = some a :=
    attributeAfterComma?_eq_some_iff.2 ⟨ha, after, rfl⟩
  obtain ⟨before', rest, b, hleftmost, -⟩ : ∃ before' rest b,
      LeftmostAt (fun _ => attributeAfterComma?) (fun _ _ => ()) () (before ++ ',' :: (a.text ++ after)) before' rest b ∧
        before'.length ≤ before.length :=
    exists_leftmostAt_of_look (List.cons_ne_nil _ _) hhere
  obtain ⟨-, after', rfl⟩ := attributeAfterComma?_eq_some_iff.1 hleftmost.here
  exact ⟨before', b, after', hleftmost⟩

/-- The members of a line are those of the first attribute and then those of the further one. -/
theorem suiteMembers_eq (hinside : parameters? fits line = some inside) (ha : FirstAt inside before a after) (n : Int) :
    suiteMembers fits n line =
      a.members n line ++ (furtherAttribute? inside).toList.flatMap (Attribute.members n line) := by
  simp [suiteMembers, hinside, firstAttribute?_eq_some_iff.2 ⟨before, after, ha⟩]

/-- Where no other attribute stands, a comma makes the only one the further one as well. -/
theorem FirstAt.furtherAttribute?_of_only (ha : FirstAt inside before a after)
    (honly : ∀ before' (b : Attribute) after', b.Wellformed → inside = before' ++ (b.text ++ after') → before' = before) :
    furtherAttribute? inside = if before.getLast? = some ',' then some a else none := by
  have hcomma : ∀ before' b after', FurtherAt inside before' b after' → before = before' ++ [','] :=
    fun before' b after' hb => (honly (before' ++ [',']) b after' hb.wellformed (by simp [hb.split])).symm
  split
  · next hlast =>
    obtain ⟨front, hfront⟩ := List.getLast?_eq_some_iff.1 hlast
    obtain ⟨before', b, after', hb⟩ : ∃ before' b after', FurtherAt inside before' b after' := by
      rw [ha.split, hfront, List.append_assoc, List.singleton_append]
      exact exists_furtherAt_of_comma ha.wellformed
    obtain ⟨rfl, -⟩ := ha.same_of_comma hb (hcomma before' b after' hb)
    exact furtherAttribute?_eq_some_iff.2 ⟨before', after', hb⟩
  · next hlast =>
    refine Option.eq_none_iff_forall_ne_some.2 fun b hfurther => ?_
    obtain ⟨before', after', hb⟩ := furtherAttribute?_eq_some_iff.1 hfurther
    exact hlast (by simp [hcomma before' b after' hb])

/-- The attributes of an annotation are read apart from each other, unless there is a comma right before the first one or
its value runs on. If there is a comma, the first attribute is read twice; if it is the only one, this decides between
reporting its names once and twice. -/
theorem suiteMembers_of_firstAt (fits : Fits) (n : Int) (hinside : parameters? fits line = some inside)
    (ha : FirstAt inside before a after) :
    (∀ before' b after', FurtherAt inside before' b after' →
      suiteMembers fits n line =
        (a.items before.length).map (a.member n line ·.2) ++ (b.items (before'.length + 1)).map (b.member n line ·.2) ∧
      (∀ i ∈ a.items before.length ++ b.items (before'.length + 1), i.2 <+: inside.drop i.1) ∧
      (before.length + a.text.length ≤ before'.length ↔ before.getLast? ≠ some ',' ∧ ¬ a.RunsOn) ∧
      ((a.items before.length ++ b.items (before'.length + 1)).Pairwise EndsBefore ↔ before.getLast? ≠ some ',')) ∧
    (furtherAttribute? inside = none → suiteMembers fits n line = a.members n line) ∧
    ((∀ before' (b : Attribute) after', b.Wellformed → inside = before' ++ (b.text ++ after') → before' = before) →
      suiteMembers fits n line =
        if before.getLast? = some ',' then a.members n line ++ a.members n line else a.members n line) := by
  have hmembers := suiteMembers_eq hinside ha n
  refine ⟨fun before' b after' hb => ?_, fun hnone => ?_, fun honly => ?_⟩
  · refine ⟨?_, hb.prefix_of_mem_items ha, hb.behind_iff ha, hb.pairwise_items_iff ha⟩
    simpa [furtherAttribute?_eq_some_iff.2 ⟨before', after', hb⟩, ← Attribute.members_eq_items] using hmembers
  · simpa [hnone] using hmembers
  · rw [hmembers, ha.furtherAttribute?_of_only honly]
    split <;> simp

/-- Two attributes that stand apart, and so do their items. -/
theorem suiteMembers_of_firstAt_two :
    ∃ before after, FurtherAt "classes=\"A\",procedures=\"p\"".toList before ⟨proceduresWord, ['p']⟩ after ∧
      11 ≤ before.length ∧
      (Attribute.items 0 ⟨classesWord, ['A']⟩ ++ Attribute.items (before.length + 1) ⟨proceduresWord, ['p']⟩).Pairwise
        EndsBefore := by
  have hinside : parameters? exactly "@testsuite(classes=\"A\",procedures=\"p\")".toList =
      some "classes=\"A\",procedures=\"p\"".toList := by decide
  have hfirst : FirstAt "classes=\"A\",procedures=\"p\"".toList [] ⟨classesWord, ['A']⟩ ",procedures=\"p\"".toList :=
    ⟨rfl, by decide, rfl, by simp⟩
  have hsecond : furtherAttribute? "classes=\"A\",procedures=\"p\"".toList = some ⟨proceduresWord, ['p']⟩ := by decide
  have hruns : ¬ Attribute.RunsOn ⟨classesWord, ['A']⟩ := by
    rintro ⟨v, w, -, hvalue⟩
    have hcomma : ',' ∉ v ++ ',' :: (w ++ ['=']) := by
      rw [← hvalue]
      decide
    simp at hcomma
  obtain ⟨before, after, hfurther⟩ := furtherAttribute?_eq_some_iff.1 hsecond
  obtain ⟨-, -, hbehind, hitems⟩ := (suiteMembers_of_firstAt exactly 0 hinside hfirst).1 before _ after hfurther
  exact ⟨before, after, hfurther, hbehind.2 ⟨by decide, hruns⟩, hitems.2 (by decide)⟩

/-- A comma before the only attribute: its name is reported twice. -/
theorem suiteMembers_commaBefore :
    suiteMembers exactly 0 "@testsuite(name=\"x\",classes=\"A\")".toList =
      [⟨"classes", "A", .onLine 0 29 30⟩, ⟨"classes", "A", .onLine 0 29 30⟩] := by
  decide

/-- A value that runs on: its closing quote opens the further value. -/
example : (suiteMembers exactly 0 "@testsuite(classes=\"a,classes=\"b\")".toList).map SuiteMember.name =
    ["a", "classes=", "b"] := by
  decide

end TestDiscovery.Grammar
