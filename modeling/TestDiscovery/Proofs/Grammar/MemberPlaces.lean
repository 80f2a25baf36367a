-- SUMMARY: What an annotation lists, cut at its parentheses, its attributes and their commas.
import TestDiscovery.Proofs.Grammar.AnyCaseAnnotation
import TestDiscovery.Proofs.Grammar.AttributePlaces

/-!
# Members of an annotation

The annotation of a line starts at its first opening and ends at its last closing parenthesis. If that one does not
stand behind the opening, it does not for any later opening either, so only the first one counts. Two attributes are read
between them: the leftmost one, and the leftmost one behind a comma. Each lists its names in its value, with commas
between them, and nothing else becomes a member.
-/

namespace TestDiscovery.Grammar

open Text

variable {fits : Fits} {n : Int} {line s before rest inside after value : List Char} {a : Attribute}
  {ms : List SuiteMember}

/-! ## Annotations -/

/-- The first opening of an annotation on a line: the word with its parenthesis, and `rest` behind it. -/
structure OpensAt (fits : Fits) (line before rest : List Char) : Prop where
  opening : ∃ word, Spells fits annotationWord word ∧ line = before ++ (word ++ rest)
  first : ∀ before' word' rest', Spells fits annotationWord word' → line = before' ++ (word' ++ rest') →
    before.length ≤ before'.length

/-- A line with an opening has a first one. -/
theorem exists_opensAt {word : List Char} (hword : Spells fits annotationWord word)
    (hsplit : line = before ++ (word ++ rest)) : ∃ before rest, OpensAt fits line before rest := by
  obtain ⟨before, ⟨word, rest, hword, hsplit⟩, hfirst⟩ := exists_shortest
    (fun before => ∃ word rest, Spells fits annotationWord word ∧ line = before ++ (word ++ rest))
    ⟨word, rest, hword, hsplit⟩
  exact ⟨before, rest, ⟨word, hword, hsplit⟩, fun before' word' rest' hword' hsplit' =>
    hfirst before' ⟨word', rest', hword', hsplit'⟩⟩

/-- Whatever is read as parameters stands behind an opening and before a closing parenthesis. -/
theorem exists_opening_of_parameters? (hline : '\n' ∉ line) (h : parameters? fits line = some inside) :
    ∃ before word after, Spells fits annotationWord word ∧ line = before ++ (word ++ (inside ++ ')' :: after)) := by
  rw [parameters?_eq_leftmost] at h
  obtain ⟨before, place, hleftmost⟩ := exists_leftmostAt h
  have hplace : '\n' ∉ place := fun hmem => hline (hleftmost.split ▸ List.mem_append_right before hmem)
  obtain ⟨word, after, hword, rfl, -⟩ := (parametersAt?_eq_some_iff hplace).1 hleftmost.here
  exact ⟨before, word, after, hword, hleftmost.split⟩

namespace OpensAt

/-- What stands behind a later opening stands behind the first one. -/
theorem suffix_rest {before' word' rest' : List Char} (h : OpensAt fits line before rest)
    (hword' : Spells fits annotationWord word') (hsplit' : line = before' ++ (word' ++ rest')) : rest' <:+ rest := by
  obtain ⟨word, hword, hsplit⟩ := h.opening
  have hle := h.first before' word' rest' hword' hsplit'
  have hlength : line.length = before.length + (word.length + rest.length) := by simp [hsplit]
  have hlength' : line.length = before'.length + (word'.length + rest'.length) := by simp [hsplit']
  have hwords : word'.length = word.length := hword'.length_eq.symm.trans hword.length_eq
  have hsuffix' : rest' <:+ line := ⟨before' ++ word', by rw [List.append_assoc, ← hsplit']⟩
  have hsuffix : rest <:+ line := ⟨before ++ word, by rw [List.append_assoc, ← hsplit]⟩
  exact List.suffix_of_suffix_length_le hsuffix' hsuffix (by omega)

/-- The parameters stand between the first opening and the last closing parenthesis. -/
theorem parameters?_eq (hline : '\n' ∉ line) (h : OpensAt fits line before (inside ++ ')' :: after))
    (hafter : ')' ∉ after) : parameters? fits line = some inside := by
  obtain ⟨word, hword, hsplit⟩ := h.opening
  have hinline {before place : List Char} (hsplit : line = before ++ place) : '\n' ∉ place :=
    fun hmem => hline (hsplit ▸ List.mem_append_right before hmem)
  have hne : word ++ (inside ++ ')' :: after) ≠ [] := by simp
  have hhere : parametersAt? fits (word ++ (inside ++ ')' :: after)) = some inside :=
    (parametersAt?_eq_some_iff (hinline hsplit)).2 ⟨word, after, hword, rfl, hafter⟩
  rw [parameters?_eq_leftmost]
  refine LeftmostAt.leftmost_eq (.of_le hsplit hne hhere fun before' place' inside' hsplit' hread => ?_)
  obtain ⟨word', after', hword', rfl, -⟩ := (parametersAt?_eq_some_iff (hinline hsplit')).1 hread
  exact h.first before' word' _ hword' hsplit'

/-- Without a closing parenthesis behind the first opening there are no parameters. -/
theorem parameters?_eq_none (hline : '\n' ∉ line) (h : OpensAt fits line before rest) (hrest : ')' ∉ rest) :
    parameters? fits line = none := by
  rw [Option.eq_none_iff_forall_ne_some]
  intro inside hinside
  obtain ⟨before', word', after', hword', hsplit'⟩ := exists_opening_of_parameters? hline hinside
  exact hrest ((h.suffix_rest hword' hsplit').subset (by simp))

end OpensAt

/-! ## Attributes -/

/-- The first attribute of a text that stands right behind `lead`. -/
structure LeftmostAttribute (lead s before : List Char) (a : Attribute) (after : List Char) : Prop where
  wellformed : a.Wellformed
  split : s = before ++ (lead ++ (a.text ++ after))
  first : ∀ before' (a' : Attribute) after', a'.Wellformed → s = before' ++ (lead ++ (a'.text ++ after')) →
    before.length ≤ before'.length

/-- A search for attributes behind `lead` finds the first one. -/
theorem leftmost_eq_some_iff_leftmostAttribute {lead : List Char} {look : List Char → Option Attribute}
    (hlook : ∀ rest a, look rest = some a ↔ a.Wellformed ∧ ∃ after, rest = lead ++ (a.text ++ after)) :
    leftmost (fun _ => look) (fun _ _ => ()) () s = some a ↔ ∃ before after, LeftmostAttribute lead s before a after := by
  have hfinds : Finds (fun _ => look) (fun _ _ => ()) () s
      (fun before (place : Attribute × List Char) =>
        place.1.Wellformed ∧ s = before ++ (lead ++ (place.1.text ++ place.2))) fun _ place => place.1 := by
    constructor
    · rintro before rest b rfl
      rw [hlook]
      constructor
      · rintro ⟨hb, after, rfl⟩
        exact ⟨(b, after), ⟨hb, rfl⟩, rfl⟩
      · rintro ⟨⟨b, after⟩, ⟨hb, hsplit⟩, rfl⟩
        exact ⟨hb, after, List.append_cancel_left hsplit⟩
    · rintro before ⟨b, after⟩ ⟨-, hsplit⟩
      exact ⟨lead ++ (b.text ++ after), hsplit, by simp [Attribute.text]⟩
  rw [hfinds.leftmost_eq_some_iff]
  constructor
  · rintro ⟨before, ⟨a, after⟩, ⟨ha, hsplit⟩, hfirst, rfl⟩
    exact ⟨before, after, ha, hsplit, fun before' b after' hb hsplit' => hfirst before' (b, after') ⟨hb, hsplit'⟩⟩
  · rintro ⟨before, after, ha, hsplit, hfirst⟩
    exact ⟨before, (a, after), ⟨ha, hsplit⟩, fun before' place hat => hfirst before' place.1 place.2 hat.1 hat.2, rfl⟩

/-- Where an attribute stands behind `lead`, there is a first one. -/
theorem exists_leftmostAttribute {lead : List Char} (ha : a.Wellformed)
    (hsplit : s = before ++ (lead ++ (a.text ++ after))) : ∃ before a after, LeftmostAttribute lead s before a after := by
  obtain ⟨before, ⟨a, after, ha, hsplit⟩, hfirst⟩ := exists_shortest
    (fun before => ∃ (a : Attribute) (after : List Char), a.Wellformed ∧ s = before ++ (lead ++ (a.text ++ after)))
    ⟨a, after, ha, hsplit⟩
  exact ⟨before, a, after, ha, hsplit, fun before' a' after' ha' hsplit' => hfirst before' ⟨a', after', ha', hsplit'⟩⟩

theorem LeftmostAttribute.value_infix {lead : List Char} (h : LeftmostAttribute lead s before a after) : a.value <:+: s :=
  ⟨before ++ (lead ++ (a.word ++ ['=', '"'])), '"' :: after, by simp [h.split, Attribute.text]⟩

/-! ## Members -/

/-- The members on line `n` are those that an attribute lists: their names have no commas and make up its value with
commas between them, they have its word, and the range of each is the first place where the line spells its name. -/
structure Attribute.Lists (a : Attribute) (n : Int) (line : List Char) (ms : List SuiteMember) : Prop where
  ne : ms ≠ []
  joined : joinWith ',' (ms.map fun m => m.name.toList) = a.value
  noComma : ∀ m ∈ ms, ',' ∉ m.name.toList
  word : ∀ m ∈ ms, m.word = String.ofList a.word
  range : ∀ m ∈ ms, ∃ column : Nat, m.range = .onLine n column (column + m.name.length) ∧
    m.name.toList <+: line.drop column ∧ ∀ earlier < column, ¬ m.name.toList <+: line.drop earlier

/-- The first place of a name is the column that is reported. -/
theorem columnOf_eq {name : List Char} {column : Nat} (hhere : name <+: line.drop column)
    (hfirst : ∀ earlier < column, ¬ name <+: line.drop earlier) : columnOf name line = column := by
  obtain ⟨k, hk, -, hspelled, hleast⟩ := columnOf_of_infix (hhere.isInfix.trans (List.drop_suffix column line).isInfix)
  have hle : ¬ k < column := fun hlt => hfirst k hlt hspelled
  have hge : ¬ column < k := fun hlt => hleast column hlt hhere
  rw [hk, Nat.le_antisymm (Nat.le_of_not_lt hge) (Nat.le_of_not_lt hle)]

/-- An attribute whose value is spelled on the line lists the members that are read from it, and no others. -/
theorem Attribute.lists_iff (hvalue : a.value <:+: line) : a.Lists n line ms ↔ ms = a.members n line := by
  constructor
  · rintro ⟨hne, hjoined, hnoComma, hword, hrange⟩
    have hnames : splitOn ',' a.value = ms.map fun m => m.name.toList := by
      rw [← hjoined]
      refine splitOn_joinWith (by simpa using hne) fun name hname => ?_
      obtain ⟨m, hm, rfl⟩ := List.mem_map.1 hname
      exact hnoComma m hm
    have hmember : ∀ m ∈ ms, a.member n line m.name.toList = m := by
      intro m hm
      obtain ⟨column, hcolumn, hhere, hfirst⟩ := hrange m hm
      unfold Attribute.member
      rw [columnOf_eq hhere hfirst, ← hword m hm, String.ofList_toList, String.length_toList, ← hcolumn]
    rw [Attribute.members, hnames, List.map_map]
    exact (List.map_id ms).symm.trans (List.map_congr_left fun m hm => (hmember m hm).symm)
  · rintro rfl
    have hnames : (a.members n line).map (fun m => m.name.toList) = splitOn ',' a.value := by
      rw [Attribute.members, List.map_map]
      exact List.map_id'' (fun name => String.toList_ofList) _
    have hmember : ∀ m ∈ a.members n line, ∃ name ∈ splitOn ',' a.value, m = a.member n line name := by
      intro m hm
      obtain ⟨name, hname, rfl⟩ := List.mem_map.1 hm
      exact ⟨name, hname, rfl⟩
    refine ⟨by simp [Attribute.members, splitOn_ne_nil], by rw [hnames, joinWith_splitOn], ?_, ?_, ?_⟩
    · intro m hm
      obtain ⟨name, hname, rfl⟩ := hmember m hm
      rw [Attribute.member, String.toList_ofList]
      exact not_mem_of_mem_splitOn hname
    · intro m hm
      obtain ⟨name, -, rfl⟩ := hmember m hm
      rfl
    · intro m hm
      obtain ⟨name, hname, rfl⟩ := hmember m hm
      obtain ⟨column, hcolumn, -, hhere, hfirst⟩ := columnOf_of_infix ((infix_of_mem_splitOn hname).trans hvalue)
      refine ⟨column, ?_, ?_, ?_⟩
      · simp [Attribute.member, hcolumn]
      · rwa [Attribute.member, String.toList_ofList]
      · rwa [Attribute.member, String.toList_ofList]

/-- What the first attribute behind `lead` gives: the members that it lists, and none if there is no such attribute. -/
inductive GroupAt (lead inside : List Char) (n : Int) (line : List Char) : List SuiteMember → Prop
  | listed {before after : List Char} {a : Attribute} {ms : List SuiteMember}
      (hleftmost : LeftmostAttribute lead inside before a after) (hlists : a.Lists n line ms) :
      GroupAt lead inside n line ms
  | missing (hnone : ∀ before (a : Attribute) after, a.Wellformed → inside ≠ before ++ (lead ++ (a.text ++ after))) :
      GroupAt lead inside n line []

/-- What a line lists: nothing without an opening or without a closing parenthesis behind the first opening, and
otherwise the group of the first attribute and then that of the first one behind a comma. -/
inductive MembersOf (fits : Fits) (n : Int) (line : List Char) : List SuiteMember → Prop
  | unopened (hnone : ∀ before word rest, Spells fits annotationWord word → line ≠ before ++ (word ++ rest)) :
      MembersOf fits n line []
  | unclosed {before rest : List Char} (hopens : OpensAt fits line before rest) (hrest : ')' ∉ rest) :
      MembersOf fits n line []
  | closed {before inside after : List Char} {first further : List SuiteMember}
      (hopens : OpensAt fits line before (inside ++ ')' :: after)) (hafter : ')' ∉ after)
      (hfirst : GroupAt [] inside n line first) (hfurther : GroupAt [','] inside n line further) :
      MembersOf fits n line (first ++ further)

/-- The group at an attribute is what the attribute that is found lists. -/
theorem groupAt_iff {lead : List Char} {found : Option Attribute} (hinside : inside <:+: line)
    (hfound : ∀ a, found = some a ↔ ∃ before after, LeftmostAttribute lead inside before a after) :
    GroupAt lead inside n line ms ↔ ms = found.toList.flatMap (Attribute.members n line) := by
  constructor
  · intro h
    cases h with
    | listed hleftmost hlists =>
      rw [(hfound _).2 ⟨_, _, hleftmost⟩, (Attribute.lists_iff (hleftmost.value_infix.trans hinside)).1 hlists]
      simp
    | missing hnone =>
      cases hsome : found with
      | none => rfl
      | some a =>
        obtain ⟨before, after, hleftmost⟩ := (hfound a).1 hsome
        exact absurd hleftmost.split (hnone before a after hleftmost.wellformed)
  · rintro rfl
    cases hsome : found with
    | none =>
      refine .missing fun before a after ha hsplit => ?_
      obtain ⟨before, b, after, hleftmost⟩ := exists_leftmostAttribute ha hsplit
      have hread := (hfound b).2 ⟨before, after, hleftmost⟩
      rw [hsome] at hread
      cases hread
    | some a =>
      obtain ⟨before, after, hleftmost⟩ := (hfound a).1 hsome
      exact .listed hleftmost ((Attribute.lists_iff (hleftmost.value_infix.trans hinside)).2 (by simp))

theorem firstGroup_iff (hinside : inside <:+: line) :
    GroupAt [] inside n line ms ↔ ms = (firstAttribute? inside).toList.flatMap (Attribute.members n line) :=
  groupAt_iff hinside fun a => by
    rw [firstAttribute?_eq_leftmost]
    exact leftmost_eq_some_iff_leftmostAttribute fun _ _ => attributeAt?_eq_some_iff

theorem furtherGroup_iff (hinside : inside <:+: line) :
    GroupAt [','] inside n line ms ↔ ms = (furtherAttribute? inside).toList.flatMap (Attribute.members n line) :=
  groupAt_iff hinside fun a => by
    rw [furtherAttribute?_eq_leftmost]
    exact leftmost_eq_some_iff_leftmostAttribute fun _ _ => attributeAfterComma?_eq_some_iff

/-- A member of a group is one of the names between the quotes of an attribute. -/
theorem GroupAt.exists_attribute {lead : List Char} {m : SuiteMember} (h : GroupAt lead inside n line ms) (hm : m ∈ ms)
    (hinside : inside <:+: line) : ∃ (left : List Char) (a : Attribute) (right : List Char),
      inside = left ++ (a.text ++ right) ∧ a.Wellformed ∧ m.name.toList ∈ splitOn ',' a.value := by
  cases h with
  | @listed before after a _ hleftmost hlists =>
    obtain rfl := (Attribute.lists_iff (hleftmost.value_infix.trans hinside)).1 hlists
    obtain ⟨name, hname, rfl⟩ := List.mem_map.1 hm
    refine ⟨before ++ lead, a, after, ?_, hleftmost.wellformed, ?_⟩
    · rw [hleftmost.split, List.append_assoc]
    · rwa [Attribute.member, String.toList_ofList]
  | missing => cases hm

theorem OpensAt.inside_infix (h : OpensAt fits line before (inside ++ ')' :: after)) : inside <:+: line := by
  obtain ⟨word, -, hsplit⟩ := h.opening
  exact ⟨before ++ word, ')' :: after, by simp [hsplit]⟩

theorem suiteMembers_eq_iff (hline : '\n' ∉ line) : suiteMembers fits n line = ms ↔ MembersOf fits n line ms := by
  constructor
  · rintro rfl
    by_cases hopening : ∃ before word rest, Spells fits annotationWord word ∧ line = before ++ (word ++ rest)
    · obtain ⟨before, word, rest, hword, hsplit⟩ := hopening
      obtain ⟨before, rest, hopens⟩ := exists_opensAt hword hsplit
      by_cases hrest : ')' ∈ rest
      · obtain ⟨inside, after, rfl, hafter⟩ := exists_last_of_mem hrest
        simp only [suiteMembers, hopens.parameters?_eq hline hafter, List.flatMap_append]
        exact .closed hopens hafter ((firstGroup_iff hopens.inside_infix).2 rfl)
          ((furtherGroup_iff hopens.inside_infix).2 rfl)
      · rw [suiteMembers, hopens.parameters?_eq_none hline hrest]
        exact .unclosed hopens hrest
    · have hnone : parameters? fits line = none := by
        rw [Option.eq_none_iff_forall_ne_some]
        intro inside hinside
        obtain ⟨before, word, after, hword, hsplit⟩ := exists_opening_of_parameters? hline hinside
        exact hopening ⟨before, word, _, hword, hsplit⟩
      rw [suiteMembers, hnone]
      exact .unopened fun before word rest hword hsplit => hopening ⟨before, word, rest, hword, hsplit⟩
  · intro h
    cases h with
    | unopened hnone =>
      cases hinside : parameters? fits line with
      | none => rw [suiteMembers, hinside]
      | some inside =>
        obtain ⟨before, word, after, hword, hsplit⟩ := exists_opening_of_parameters? hline hinside
        exact absurd hsplit (hnone before word _ hword)
    | unclosed hopens hrest => rw [suiteMembers, hopens.parameters?_eq_none hline hrest]
    | closed hopens hafter hfirst hfurther =>
      rw [(firstGroup_iff hopens.inside_infix).1 hfirst, (furtherGroup_iff hopens.inside_infix).1 hfurther]
      simp only [suiteMembers, hopens.parameters?_eq hline hafter, List.flatMap_append]

/-- The members that are read from a line are those that it lists, and each is one of the names between the quotes of an
attribute that stands between the first opening and the last closing parenthesis. -/
theorem suiteMembers_exact (hline : '\n' ∉ line) (fits : Fits) (n : Int) :
    (∀ ms, suiteMembers fits n line = ms ↔ MembersOf fits n line ms) ∧
    ∀ m ∈ suiteMembers fits n line, ∃ before inside after, OpensAt fits line before (inside ++ ')' :: after) ∧ ')' ∉ after ∧
      ∃ (left : List Char) (a : Attribute) (right : List Char), inside = left ++ (a.text ++ right) ∧ a.Wellformed ∧
        m.name.toList ∈ splitOn ',' a.value := by
  refine ⟨fun ms => suiteMembers_eq_iff hline, fun m hm => ?_⟩
  have hread : MembersOf fits n line (suiteMembers fits n line) := (suiteMembers_eq_iff hline).1 rfl
  generalize suiteMembers fits n line = ms at hm hread
  cases hread with
  | unopened => cases hm
  | unclosed => cases hm
  | @closed before inside after first further hopens hafter hfirst hfurther =>
    refine ⟨before, inside, after, hopens, hafter, ?_⟩
    rcases List.mem_append.1 hm with hm | hm
    · exact hfirst.exists_attribute hm hopens.inside_infix
    · exact hfurther.exists_attribute hm hopens.inside_infix

/-- The parenthesis of a comment closes the annotation, and what stands between the quotes and it is no member. -/
theorem suiteMembers_exact_closedInComment :
    '\n' ∉ "@testsuite(classes=\"A,B\") // (x)".toList ∧
      MembersOf exactly 3 "@testsuite(classes=\"A,B\") // (x)".toList
        [⟨"classes", "A", .onLine 3 20 21⟩, ⟨"classes", "B", .onLine 3 22 23⟩] := by
  have hline : '\n' ∉ "@testsuite(classes=\"A,B\") // (x)".toList := by decide
  exact ⟨hline, ((suiteMembers_exact hline exactly 3).1 _).1 (by decide)⟩

end TestDiscovery.Grammar
