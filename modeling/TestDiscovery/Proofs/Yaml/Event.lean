-- SUMMARY: The events of a modest text: implied tags only, and few starts of collections.
import TestDiscovery.Proofs.Yaml.Token
import TestDiscovery.Yaml.Event

/-!
# Events of modest texts

Without tags in the text, each scalar has the tag that its form implies, and each collection that of its kind. A
collection starts at a token that may start one. Some states have acted on such a token and read it only in the next
step, so the tokens that can still start a collection are those ahead of a state, and each start takes one of them.
-/

namespace TestDiscovery.Yaml

/-! ## Modest events -/

/-- The tag that a scalar without one gets. -/
def Tag.IsImplied (tag text : String) : Prop :=
  tag = str ∨ (tag = ofPlain text ∧ IsModestScalar text.toList)

theorem Tag.isImplied_null : IsImplied null "" :=
  .inr ⟨rfl, List.not_mem_nil, Nat.zero_le _⟩

namespace Event

def IsModest : Event → Prop
  | scalar _ tag text => Tag.IsImplied tag text
  | sequenceStart _ tag => tag = Tag.seq
  | mappingStart _ tag => tag = Tag.map
  | _ => True

/-- Whether a collection starts. -/
def opens : Event → Bool
  | sequenceStart .. | mappingStart .. => true
  | _ => false

/-! ## Steps -/

variable {m : Machine} {tokens : List Token} {t : Token} {fault : Error} {n : Nat} {e : Event}

/-- The tokens that can still start a collection. -/
def Machine.ahead (m : Machine) : List Token :=
  match m.state with
  | .blockEntry true | .blockKey true | .flowEntry true | .flowKey true | .pairKey => m.tokens.drop 1
  | .indentlessEntry => if m.tokens.head? = some .blockEntry then m.tokens.drop 1 else m.tokens
  | _ => m.tokens

theorem Machine.ahead_suffix (m : Machine) : m.ahead <:+ m.tokens := by
  unfold ahead
  split
  · exact List.drop_suffix _ _
  · exact List.drop_suffix _ _
  · exact List.drop_suffix _ _
  · exact List.drop_suffix _ _
  · exact List.drop_suffix _ _
  · split
    · exact List.drop_suffix _ _
    · exact List.suffix_refl _
  · exact List.suffix_refl _

/-- Modest tokens of which at most `n` may start a collection. -/
structure Allow (n : Nat) (tokens : List Token) : Prop where
  modest : ∀ t ∈ tokens, t.IsModest
  few : tokens.countP Token.mayStart ≤ n

theorem Allow.mono {tokens' : List Token} (h : Allow n tokens) (hsuffix : tokens' <:+ tokens) : Allow n tokens' where
  modest := fun t ht => h.modest t (hsuffix.subset ht)
  few := Nat.le_trans hsuffix.sublist.countP_le h.few

/-- A step gives a modest event, which takes one of `n` starts if it is one, and leaves the others ahead. -/
def Pays (n : Nat) (step : Step) : Prop :=
  Yields Error.IsInvalid (fun (e, m) => e.IsModest ∧ (∀ t ∈ m.tokens, t.IsModest) ∧
    e.opens.toNat + m.ahead.countP Token.mayStart ≤ n) step

theorem pays_of_plain (h : Allow n m.tokens) (he : e.IsModest) (hopens : e.opens = false) : Pays n (.ok (e, m)) := by
  refine ⟨he, h.modest, ?_⟩
  have hahead : m.ahead.countP Token.mayStart ≤ m.tokens.countP Token.mayStart := m.ahead_suffix.sublist.countP_le
  have hfew := h.few
  rw [hopens, Bool.toNat_false]
  omega

/-- A start takes the token that the next state reads. -/
theorem pays_of_start (h : Allow n m.tokens) (he : e.IsModest) (htokens : m.tokens = t :: m.ahead)
    (ht : t.mayStart = true) : Pays n (.ok (e, m)) := by
  refine ⟨he, h.modest, ?_⟩
  have hfew := h.few
  have hopens := e.opens.toNat_le
  rw [htokens, List.countP_cons_of_pos ht] at hfew
  omega

theorem peek_yields (hfault : fault.IsInvalid) :
    Yields Error.IsInvalid (fun t => ∃ rest, m.tokens = t :: rest) (m.peek fault) := by
  unfold Machine.peek
  split
  · exact hfault
  · next t rest htokens => exact ⟨rest, htokens⟩

theorem Machine.skip_suffix (m : Machine) : m.skip.tokens <:+ m.tokens := List.drop_suffix _ _

theorem Machine.pop_tokens (m : Machine) : m.pop.tokens = m.tokens := by
  unfold Machine.pop
  split <;> rfl

/-- A node ends, or is one token. -/
theorem pays_of_pop (h : Allow n m.tokens) (he : e.IsModest) (hopens : e.opens = false) : Pays n (.ok (e, m.pop)) := by
  refine pays_of_plain ?_ he hopens
  rw [Machine.pop_tokens]
  exact h

/-! ### Nodes -/

theorem properties_yields (hfault : fault.IsInvalid) (h : Allow n m.tokens) :
    Yields Error.IsInvalid (fun (props, m') => props.tag = none ∧ Allow n m'.tokens) (properties m fault) := by
  unfold properties
  refine (peek_yields hfault).bind fun t ht => ?_
  obtain ⟨rest, htokens⟩ := ht
  split
  · next name =>
    have hskip : Allow n m.skip.tokens := h.mono m.skip_suffix
    refine (peek_yields hfault).bind fun t ht => ?_
    obtain ⟨rest', htokens'⟩ := ht
    split
    · exact absurd (hskip.modest _ (htokens' ▸ List.mem_cons_self)) id
    · exact ⟨rfl, hskip⟩
  · exact absurd (h.modest _ (htokens ▸ List.mem_cons_self)) id
  · exact ⟨rfl, h⟩

theorem absent_pays (h : Allow n m.tokens) {props : Properties} : Pays n (node.absent props none m) := by
  unfold node.absent
  exact Yields.ite (fun _ => pays_of_pop h Tag.isImplied_null rfl) fun _ => trivial

theorem node_pays (block indentless : Bool) (hfault : fault.IsInvalid) (h : Allow n m.tokens) :
    Pays n (node block indentless m fault) := by
  unfold node
  refine (peek_yields hfault).bind fun t ht => ?_
  split
  · exact pays_of_pop (h.mono m.skip_suffix) trivial rfl
  · refine (properties_yields hfault h).bind fun read hread => ?_
    obtain ⟨⟨anchor, tag⟩, m'⟩ := read
    obtain ⟨rfl, h'⟩ := hread
    refine (peek_yields hfault).bind fun t ht => ?_
    obtain ⟨rest, htokens⟩ := ht
    -- A collection starts, and the next state reads the token that starts it.
    have hstart {e : Event} (he : e.IsModest) (state : State) (hahead : (m'.enter state).ahead = rest)
        (ht : t.mayStart = true) : Pays n (.ok (e, m'.enter state)) :=
      pays_of_start (m := m'.enter state) h' he (htokens.trans (by rw [hahead])) ht
    have hsequence : (sequenceStart anchor Tag.seq).IsModest := rfl
    have hmapping : (mappingStart anchor Tag.map).IsModest := rfl
    have hdrop : m'.tokens.drop 1 = rest := by rw [htokens, List.drop_one, List.tail_cons]
    dsimp only
    split
    · refine Yields.ite (fun _ => hstart hsequence _ ?_ rfl) fun _ => absent_pays h'
      exact (if_pos (by rw [Machine.enter, htokens, List.head?_cons])).trans hdrop
    · next text plain =>
      have hscalar : IsModest (scalar anchor (if plain || false then Tag.ofPlain text else Tag.str) text) := by
        cases plain with
        | true =>
          have hplain : (Token.scalar text true).IsModest := h'.modest _ (htokens ▸ List.mem_cons_self)
          exact .inr ⟨rfl, hplain rfl⟩
        | false => exact .inl rfl
      exact pays_of_pop (h'.mono m'.skip_suffix) hscalar rfl
    · exact hstart hsequence (.flowEntry true) hdrop rfl
    · exact hstart hmapping (.flowKey true) hdrop rfl
    · exact Yields.ite (fun _ => hstart hsequence (.blockEntry true) hdrop rfl) fun _ => absent_pays h'
    · exact Yields.ite (fun _ => hstart hmapping (.blockKey true) hdrop rfl) fun _ => absent_pays h'
    · exact absent_pays h'

/-- A value that is left out, or a node. -/
theorem entry_pays {f : Token → Step} (block indentless : Bool) (hfault : fault.IsInvalid) (h : Allow n m.tokens)
    (absent next : State)
    (hf : ∀ t, f t = .ok (empty, m.enter absent) ∨ f t = node block indentless (m.push next) fault) :
    Pays n (m.peek fault >>= f) := by
  refine (peek_yields hfault).bind fun t _ => ?_
  rcases hf t with hempty | hnode
  · rw [hempty]
    exact pays_of_plain h Tag.isImplied_null rfl
  · rw [hnode]
    exact node_pays block indentless hfault (m := m.push next) h

/-! ### Documents -/

theorem directives_suffix (hfault : fault.IsInvalid) (versioned : Bool) (handles : List (String × String)) :
    Yields Error.IsInvalid (fun (_, rest) => rest <:+ tokens) (directives fault versioned handles tokens) := by
  induction tokens generalizing versioned handles with
  | nil => exact hfault
  | cons t rest ih =>
    have hmore (versioned : Bool) (handles : List (String × String)) :
        Yields Error.IsInvalid (fun (_, rest') => rest' <:+ t :: rest) (directives fault versioned handles rest) :=
      (ih versioned handles).mono (fun _ => id) fun _ h => h.trans (List.suffix_cons t rest)
    unfold directives
    split
    · exact hfault
    · next heq =>
      cases heq
      exact Yields.ite (fun _ => trivial) fun _ => hmore _ _
    · next heq =>
      cases heq
      exact Yields.ite (fun _ => trivial) fun _ => hmore _ _
    · next heq =>
      cases heq
      exact hmore _ _
    · exact List.suffix_refl _

theorem markedDocument_pays (hfault : fault.IsInvalid) (h : Allow n m.tokens) : Pays n (markedDocument m fault) := by
  have hdrop : Allow n (m.tokens.dropWhile (· == Token.documentEnd)) := h.mono (List.dropWhile_suffix _)
  unfold markedDocument
  dsimp only
  generalize m.tokens.dropWhile (· == Token.documentEnd) = tokens at hdrop ⊢
  refine (peek_yields hfault).bind fun t _ => ?_
  split
  · exact pays_of_plain (hdrop.mono (List.drop_suffix 1 _)) trivial rfl
  · refine (directives_suffix hfault false []).bind fun read hread => ?_
    obtain ⟨handles, tokens'⟩ := read
    have hread : Allow n tokens' := hdrop.mono hread
    refine (peek_yields hfault).bind fun t _ => ?_
    split
    · exact pays_of_plain (hread.mono (List.drop_suffix 1 _)) trivial rfl
    · trivial

/-! ### All steps -/

theorem flowEntryStep_pays (hfault : fault.IsInvalid) (h : Allow n m.tokens) : Pays n (flowEntryStep m fault) := by
  unfold flowEntryStep
  refine (peek_yields hfault).bind fun t ht => ?_
  obtain ⟨rest, htokens⟩ := ht
  split
  · refine pays_of_start (t := .key) (m := m.enter .pairKey) h rfl (htokens.trans ?_) rfl
    exact congrArg _ (by rw [Machine.enter, Machine.ahead, htokens, List.drop_one, List.tail_cons])
  · exact pays_of_pop (h.mono m.skip_suffix) trivial rfl
  · exact node_pays false false hfault (m := m.push _) h

theorem flowKeyStep_pays (hfault : fault.IsInvalid) (h : Allow n m.tokens) : Pays n (flowKeyStep m fault) := by
  have hskip := h.mono m.skip_suffix
  unfold flowKeyStep
  refine (peek_yields hfault).bind fun t _ => ?_
  split
  · refine entry_pays false false hfault hskip .flowValue .flowValue fun t => ?_
    cases t <;> first | exact .inl rfl | exact .inr rfl
  · exact pays_of_pop hskip trivial rfl
  · exact node_pays false false hfault (m := m.push _) h

theorem step_pays (hfault : fault.IsInvalid) (hmodest : ∀ t ∈ m.tokens, t.IsModest)
    (hn : m.ahead.countP Token.mayStart ≤ n) : Pays n (step m fault) := by
  obtain ⟨tokens, state, stack, handles⟩ := m
  have hdrop : ∀ t ∈ tokens.drop 1, t.IsModest := fun t ht => hmodest t (List.mem_of_mem_drop ht)
  cases state with
  | firstDocument =>
    have h : Allow n tokens := ⟨hmodest, hn⟩
    refine (peek_yields hfault).bind fun t _ => ?_
    split
    · exact markedDocument_pays hfault h
    · exact markedDocument_pays hfault h
    · exact markedDocument_pays hfault h
    · exact pays_of_plain h trivial rfl
  | documentStart => exact markedDocument_pays hfault ⟨hmodest, hn⟩
  | documentContent =>
    have h : Allow n tokens := ⟨hmodest, hn⟩
    refine (peek_yields hfault).bind fun t _ => ?_
    split
    · exact pays_of_pop h Tag.isImplied_null rfl
    · exact pays_of_pop h Tag.isImplied_null rfl
    · exact pays_of_pop h Tag.isImplied_null rfl
    · exact pays_of_pop h Tag.isImplied_null rfl
    · exact node_pays true false hfault h
  | documentEnd =>
    have h : Allow n tokens := ⟨hmodest, hn⟩
    refine (peek_yields hfault).bind fun t _ => ?_
    split
    · exact pays_of_plain (h.mono (List.drop_suffix 1 _)) trivial rfl
    · exact pays_of_plain h trivial rfl
  | blockNode => exact node_pays true false hfault ⟨hmodest, hn⟩
  | blockEntry first =>
    have h : Allow n (if first then Machine.skip ⟨tokens, .blockEntry first, stack, handles⟩
        else ⟨tokens, .blockEntry first, stack, handles⟩).tokens := by
      cases first with
      | true => exact ⟨hdrop, hn⟩
      | false => exact ⟨hmodest, hn⟩
    unfold step
    dsimp only
    generalize (if first then Machine.skip ⟨tokens, .blockEntry first, stack, handles⟩
      else ⟨tokens, .blockEntry first, stack, handles⟩) = m at h ⊢
    refine (peek_yields hfault).bind fun t _ => ?_
    split
    · refine entry_pays true false hfault (h.mono m.skip_suffix) (.blockEntry false) (.blockEntry false) fun t => ?_
      cases t <;> first | exact .inl rfl | exact .inr rfl
    · exact pays_of_pop (h.mono m.skip_suffix) trivial rfl
    · trivial
  | indentlessEntry =>
    refine (peek_yields hfault).bind fun t ht => ?_
    obtain ⟨rest, rfl⟩ : ∃ rest, tokens = t :: rest := ht
    split
    · refine entry_pays true false hfault (m := ⟨rest, .indentlessEntry, stack, handles⟩) ⟨hdrop, hn⟩ .indentlessEntry
        .indentlessEntry fun t => ?_
      cases t <;> first | exact .inl rfl | exact .inr rfl
    · next hother =>
      have hahead : Machine.ahead ⟨t :: rest, .indentlessEntry, stack, handles⟩ = t :: rest :=
        if_neg fun heq => hother (Option.some.inj heq)
      rw [hahead] at hn
      exact pays_of_pop ⟨hmodest, hn⟩ trivial rfl
  | blockKey first =>
    have h : Allow n (if first then Machine.skip ⟨tokens, .blockKey first, stack, handles⟩
        else ⟨tokens, .blockKey first, stack, handles⟩).tokens := by
      cases first with
      | true => exact ⟨hdrop, hn⟩
      | false => exact ⟨hmodest, hn⟩
    unfold step
    dsimp only
    generalize (if first then Machine.skip ⟨tokens, .blockKey first, stack, handles⟩
      else ⟨tokens, .blockKey first, stack, handles⟩) = m at h ⊢
    refine (peek_yields hfault).bind fun t _ => ?_
    split
    · refine entry_pays true true hfault (h.mono m.skip_suffix) .blockValue .blockValue fun t => ?_
      cases t <;> first | exact .inl rfl | exact .inr rfl
    · exact pays_of_pop (h.mono m.skip_suffix) trivial rfl
    · trivial
  | blockValue =>
    have h : Allow n tokens := ⟨hmodest, hn⟩
    refine (peek_yields hfault).bind fun t _ => ?_
    split
    · refine entry_pays true true hfault (m := Machine.skip ⟨tokens, .blockValue, stack, handles⟩)
        (h.mono (List.drop_suffix 1 _)) (.blockKey false) (.blockKey false) fun t => ?_
      cases t <;> first | exact .inl rfl | exact .inr rfl
    · exact pays_of_plain h Tag.isImplied_null rfl
  | flowEntry first =>
    cases first with
    | true => exact flowEntryStep_pays hfault (m := Machine.skip ⟨tokens, .flowEntry true, stack, handles⟩) ⟨hdrop, hn⟩
    | false =>
      have h : Allow n tokens := ⟨hmodest, hn⟩
      refine (peek_yields hfault).bind fun t _ => ?_
      split
      · exact pays_of_pop (h.mono (List.drop_suffix 1 _)) trivial rfl
      · exact flowEntryStep_pays hfault (h.mono (List.drop_suffix 1 _))
      · trivial
  | pairKey =>
    refine entry_pays false false hfault (m := Machine.skip ⟨tokens, .pairKey, stack, handles⟩) ⟨hdrop, hn⟩ .pairValue
      .pairValue fun t => ?_
    cases t <;> first | exact .inl rfl | exact .inr rfl
  | pairValue =>
    have h : Allow n tokens := ⟨hmodest, hn⟩
    refine (peek_yields hfault).bind fun t _ => ?_
    split
    · refine entry_pays false false hfault (m := Machine.skip ⟨tokens, .pairValue, stack, handles⟩)
        (h.mono (List.drop_suffix 1 _)) .pairEnd .pairEnd fun t => ?_
      cases t <;> first | exact .inl rfl | exact .inr rfl
    · exact pays_of_plain h Tag.isImplied_null rfl
  | pairEnd => exact (peek_yields hfault).bind fun t _ => pays_of_plain ⟨hmodest, hn⟩ trivial rfl
  | flowKey first =>
    cases first with
    | true => exact flowKeyStep_pays hfault (m := Machine.skip ⟨tokens, .flowKey true, stack, handles⟩) ⟨hdrop, hn⟩
    | false =>
      have h : Allow n tokens := ⟨hmodest, hn⟩
      refine (peek_yields hfault).bind fun t _ => ?_
      split
      · exact pays_of_pop (h.mono (List.drop_suffix 1 _)) trivial rfl
      · exact flowKeyStep_pays hfault (h.mono (List.drop_suffix 1 _))
      · trivial
  | flowValue =>
    have h : Allow n tokens := ⟨hmodest, hn⟩
    refine (peek_yields hfault).bind fun t _ => ?_
    split
    · refine entry_pays false false hfault (m := Machine.skip ⟨tokens, .flowValue, stack, handles⟩)
        (h.mono (List.drop_suffix 1 _)) (.flowKey false) (.flowKey false) fun t => ?_
      cases t <;> first | exact .inl rfl | exact .inr rfl
    · exact pays_of_plain h Tag.isImplied_null rfl
  | emptyValue => exact (peek_yields hfault).bind fun t _ => pays_of_plain ⟨hmodest, hn⟩ Tag.isImplied_null rfl

/-! ## All events -/

/-- Events without tags of their own, few of which start a collection; the fault that ends them breaks a rule. -/
structure IsModestRun (n : Nat) (events : List Event) (fault : Option Error) : Prop where
  modest : ∀ e ∈ events, e.IsModest
  few : events.countP opens ≤ n
  fault : ∀ e, fault = some e → e.IsInvalid

theorem IsModestRun.nil {e : Error} (he : e.IsInvalid) : IsModestRun n [] (some e) where
  modest := fun _ h => absurd h List.not_mem_nil
  few := Nat.zero_le n
  fault := fun _ hsome => Option.some.inj hsome ▸ he

theorem run_isModestRun (hfault : fault.IsInvalid) (fuel : Nat) (hmodest : ∀ t ∈ m.tokens, t.IsModest)
    (hn : m.ahead.countP Token.mayStart ≤ n) : IsModestRun n (run fault fuel m).1 (run fault fuel m).2 := by
  induction fuel generalizing m n with
  | zero => exact .nil trivial
  | succ fuel ih =>
    have hstep := step_pays hfault hmodest hn
    unfold run
    split
    · next e herror => exact .nil (hstep.of_error herror)
    · exact ⟨by simp [IsModest], by simp [opens], fun _ hnone => by cases hnone⟩
    · next e m' _ hok =>
      obtain ⟨he, hmodest', hcount⟩ := hstep.of_ok hok
      have hrest := ih (m := m') (n := n - e.opens.toNat) hmodest' (by omega)
      refine ⟨List.forall_mem_cons.2 ⟨he, hrest.modest⟩, ?_, hrest.fault⟩
      have hfew := hrest.few
      dsimp only
      rw [List.countP_cons]
      cases hopens : e.opens <;> simp [hopens] at hcount hfew ⊢ <;> omega

theorem ofTokens_isModestRun {fault : Option Error} (h : IsModestStream tokens fault) :
    IsModestRun (2 * maxIndicators) (ofTokens tokens fault).1 (ofTokens tokens fault).2 := by
  refine run_isModestRun ?_ _ h.modest h.few
  cases fault with
  | none => trivial
  | some e => exact h.fault e rfl

end Event

end TestDiscovery.Yaml
