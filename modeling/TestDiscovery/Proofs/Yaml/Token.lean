-- SUMMARY: The tokens of a modest text: no tags, small scalars, and few starts of collections.
import TestDiscovery.Proofs.Yaml.Name
import TestDiscovery.Yaml.Token.Stream

/-!
# Tokens of modest texts

A modest text has no tags, no merge keys, no escapes with eight digits and not too many indicators. Reading it never
breaks down. Its tokens have no tags either, each of its plain scalars has few colons, and the number of collections
that they start is bounded by the indicators: each indicator pays for two tokens that may start a collection.
-/

namespace TestDiscovery.Yaml

/-! ## Modest texts -/

/-- The characters that separate keys, values and items or open a flow collection. -/
def isIndicator (c : Char) : Bool := c == ':' || c == '-' || c == '?' || c == '[' || c == '{'

/-- How many indicators a modest text may have. -/
def maxIndicators : Nat := 173

/-- A text that nothing breaks down on. -/
structure IsModest (text : List Char) : Prop where
  noTag : '!' ∉ text
  noMerge : '<' ∉ text
  noLongEscape : ¬ ['\\', 'U'] <:+: text
  fewIndicators : text.countP isIndicator ≤ maxIndicators

example : IsModest "discovery:\n  exclude_dirs: [.git, '.builder']\n".toList :=
  ⟨by decide +kernel, by decide +kernel, by decide +kernel, by decide +kernel⟩

/-- What a plain scalar of a modest text is like. -/
def IsModestScalar (s : List Char) : Prop := '<' ∉ s ∧ s.count ':' ≤ maxIndicators

def Token.IsModest : Token → Prop
  | tag _ _ => False
  | scalar text plain => plain = true → IsModestScalar text.toList
  | _ => True

/-- Whether a collection may start at a token. -/
def Token.mayStart : Token → Bool
  | blockSequenceStart | blockMappingStart | flowSequenceStart | flowMappingStart | blockEntry | key => true
  | _ => false

/-- Tokens without tags, few of which may start a collection; the fault that ends them breaks a rule. -/
structure IsModestStream (tokens : List Token) (fault : Option Error) : Prop where
  modest : ∀ t ∈ tokens, t.IsModest
  few : tokens.countP Token.mayStart ≤ 2 * maxIndicators
  fault : ∀ e, fault = some e → e.IsInvalid

/-! ## Reading tokens -/

/-- The tokens of a text up to some place, with `rest` left. The indicators that are read pay for the tokens that may
start a collection, and for `slack` more of them. -/
structure Reads (text : List Char) (tokens : List Token) (rest : List Char) (slack : Nat) : Prop where
  suffix : rest <:+ text
  modest : ∀ t ∈ tokens, t.IsModest
  paid : tokens.countP Token.mayStart + slack + 2 * rest.countP isIndicator ≤ 2 * text.countP isIndicator

variable {text rest rest' : List Char} {tokens tokens' : List Token} {slack : Nat} {t : Token}

namespace Reads

theorem start (text : List Char) : Reads text [] text 0 := ⟨List.suffix_refl _, by simp, by simp⟩

theorem mono (h : Reads text tokens rest slack) (hrest : rest' <:+ rest) : Reads text tokens rest' slack where
  suffix := hrest.trans h.suffix
  modest := h.modest
  paid := by
    have hcount : rest'.countP isIndicator ≤ rest.countP isIndicator := hrest.sublist.countP_le
    have hpaid := h.paid
    omega

/-- An indicator is read. -/
theorem indicator {c : Cursor} {ch : Char} (h : Reads text tokens c.rest slack) (hpeek : c.peek = some ch)
    (hch : isIndicator ch = true) : Reads text tokens c.next.rest (slack + 2) where
  suffix := c.next_suffix.trans h.suffix
  modest := h.modest
  paid := by
    have hpaid := h.paid
    rw [Cursor.rest_of_peek hpeek, List.countP_cons_of_pos hch] at hpaid
    omega

/-- One more token, wherever it is put. -/
theorem of_perm (h : Reads text tokens rest (slack + t.mayStart.toNat)) (ht : t.IsModest)
    (hperm : tokens'.Perm (t :: tokens)) : Reads text tokens' rest slack where
  suffix := h.suffix
  modest := by
    intro u hu
    rcases List.mem_cons.1 (hperm.subset hu) with rfl | hu
    · exact ht
    · exact h.modest u hu
  paid := by
    have hpaid := h.paid
    rw [hperm.countP_eq, List.countP_cons]
    cases hstart : t.mayStart <;> simp only [hstart, Bool.toNat_true, Bool.toNat_false] at hpaid ⊢ <;> simp <;> omega

theorem weaken (h : Reads text tokens rest (slack + 1)) : Reads text tokens rest slack where
  suffix := h.suffix
  modest := h.modest
  paid := by
    have hpaid := h.paid
    omega

variable {s : Tokenizer}

/-- What is left for a start of a collection is left for any token. -/
theorem forToken (h : Reads text tokens rest (slack + 1)) (t : Token) :
    Reads text tokens rest (slack + t.mayStart.toNat) := by
  cases t.mayStart with
  | true => exact h
  | false => exact h.weaken

theorem push (h : Reads text s.tokens.toList rest (slack + t.mayStart.toNat)) (ht : t.IsModest) :
    Reads text (s.push t).tokens.toList rest slack := by
  refine h.of_perm ht ?_
  rw [Tokenizer.push, Array.toList_push]
  exact List.perm_append_singleton _ _

theorem pushStart (h : Reads text s.tokens.toList rest (slack + 1)) (ht : t.IsModest) :
    Reads text (s.push t).tokens.toList rest slack := (h.forToken t).push ht

theorem pushPlain (h : Reads text s.tokens.toList rest slack) (ht : t.IsModest) (hstart : t.mayStart = false) :
    Reads text (s.push t).tokens.toList rest slack := by
  refine push ?_ ht
  rw [hstart]
  exact h

theorem insert {tokens : Array Token} (h : Reads text tokens.toList rest (slack + 1)) (position : Nat)
    (ht : t.IsModest) : Reads text (tokens.insertIdxIfInBounds position t).toList rest slack := by
  unfold Array.insertIdxIfInBounds
  split
  · next hbound =>
    refine (h.forToken t).of_perm ht ?_
    rw [Array.toList_insertIdx]
    exact List.perm_insertIdx _ _ (by simpa using hbound)
  · exact h.weaken

theorem startBlock (h : Reads text s.tokens.toList rest (slack + 1)) (ht : t.IsModest) :
    Reads text (s.startBlock t).tokens.toList rest slack := by
  unfold Tokenizer.startBlock Tokenizer.openBlock?
  split
  · next s' hopen =>
    split at hopen
    · cases hopen
      exact pushStart h ht
    · cases hopen
  · exact h.weaken

theorem unwind (h : Reads text s.tokens.toList rest slack) (column : Int) :
    Reads text (s.unwind column).tokens.toList rest slack := by
  have hunwind (outer : List Int) (s : Tokenizer) (h : Reads text s.tokens.toList rest slack) :
      Reads text (s.unwindTo column outer).tokens.toList rest slack := by
    induction outer generalizing s with
    | nil => exact h
    | cons column' outer ih =>
      unfold Tokenizer.unwindTo
      split
      · exact ih _ (push (t := .blockEnd) h trivial)
      · exact h
  unfold Tokenizer.unwind
  split
  · exact h
  · exact hunwind s.outer s h

end Reads

namespace Tokenizer

variable {s : Tokenizer}

theorem unwind_cursor (s : Tokenizer) (column : Int) : (s.unwind column).cursor = s.cursor := by
  have hunwind (outer : List Int) (s : Tokenizer) : (s.unwindTo column outer).cursor = s.cursor := by
    induction outer generalizing s with
    | nil => rfl
    | cons column' outer ih =>
      unfold unwindTo
      split
      · exact ih _
      · rfl
  unfold unwind
  split
  · rfl
  · exact hunwind s.outer s

theorem startBlock_cursor (s : Tokenizer) (t : Token) : (s.startBlock t).cursor = s.cursor := by
  unfold startBlock openBlock?
  split
  · next s' hopen =>
    split at hopen
    · cases hopen
      rfl
    · cases hopen
  · rfl

theorem skipBlanks_suffix (flow : Bool) (fuel : Nat) (c : Cursor) (keyAllowed : Bool) :
    (skipBlanks flow fuel c keyAllowed).1.rest <:+ c.rest := by
  induction fuel generalizing c keyAllowed with
  | zero => exact List.suffix_refl _
  | succ fuel ih =>
    have hcomment := (Cursor.skipComment_suffix c.skipSpaces).trans c.skipSpaces_suffix
    unfold skipBlanks
    dsimp only
    split
    · exact (ih _ _).trans ((Cursor.next_suffix _).trans hcomment)
    · exact hcomment

theorem toNextToken_suffix (s : Tokenizer) : s.toNextToken.cursor.rest <:+ s.cursor.rest := by
  unfold toNextToken
  dsimp only
  refine (skipBlanks_suffix _ _ _ _).trans ?_
  split
  · exact s.cursor.next_suffix
  · exact List.suffix_refl _

/-! ### Keys -/

/-- Only the possible keys change, and what is refused breaks a rule. -/
def KeepsText (s : Tokenizer) (step : Except Error Tokenizer) : Prop :=
  Yields Error.IsInvalid (fun s' => ∃ keys, s' = { s with keys }) step

theorem dropStale_keepsText (s : Tokenizer) : KeepsText s s.dropStale := by
  unfold dropStale
  exact Yields.ite (fun _ => trivial) fun _ => ⟨_, rfl⟩

theorem dropKey_keepsText (s : Tokenizer) : KeepsText s s.dropKey := by
  unfold dropKey
  exact Yields.ite (fun _ => trivial) fun _ => ⟨_, rfl⟩

theorem saveKey_keepsText (s : Tokenizer) : KeepsText s s.saveKey := by
  unfold saveKey
  refine Yields.ite (fun _ => ?_) fun _ => ⟨s.keys, rfl⟩
  refine s.dropKey_keepsText.bind fun s' hs' => ?_
  obtain ⟨keys, rfl⟩ := hs'
  exact ⟨_, rfl⟩

/-! ### One token -/

/-- The state has read tokens of the text. -/
def Reads (text : List Char) (s : Tokenizer) : Prop := Yaml.Reads text s.tokens.toList s.cursor.rest 0

/-- The step reads on, and what it refuses breaks a rule. -/
def StepReads (text : List Char) (step : Except Error Tokenizer) : Prop := Yields Error.IsInvalid (Reads text) step

variable {text : List Char} {t : Token} {ch : Char}

theorem reads_unwind (h : s.Reads text) (column : Int) : (s.unwind column).Reads text := by
  unfold Reads
  rw [unwind_cursor]
  exact Yaml.Reads.unwind h column

theorem readEnd_reads (h : s.Reads text) : StepReads text s.readEnd := by
  have hunwind := reads_unwind h (-1)
  refine (dropKey_keepsText _).bind fun s' hs' => ?_
  obtain ⟨keys, rfl⟩ := hs'
  exact hunwind.push (t := .streamEnd) trivial

theorem readDirective_reads (h : s.Reads text) : StepReads text s.readDirective := by
  have hunwind := reads_unwind h (-1)
  refine (dropKey_keepsText _).bind fun s' hs' => ?_
  obtain ⟨keys, rfl⟩ := hs'
  refine (directiveToken_readsOn _).bind fun read hread => ?_
  obtain ⟨token, cursor⟩ := read
  obtain ⟨⟨d, rfl⟩, hsuffix⟩ := hread
  exact (hunwind.mono hsuffix).push (t := .directive d) trivial

theorem readDocumentMark_reads (h : s.Reads text) (ht : t.IsModest) (hstart : t.mayStart = false) :
    StepReads text (s.readDocumentMark t) := by
  have hunwind := reads_unwind h (-1)
  refine (dropKey_keepsText _).bind fun s' hs' => ?_
  obtain ⟨keys, rfl⟩ := hs'
  have hmark := hunwind.mono ((s.unwind (-1)).cursor.advance_suffix 3)
  exact hmark.pushPlain ht hstart

theorem readFlowStart_reads (h : s.Reads text) (hpeek : s.cursor.peek = some ch) (hch : isIndicator ch = true)
    (ht : t.IsModest) : StepReads text (s.readFlowStart t) := by
  refine s.saveKey_keepsText.bind fun s' hs' => ?_
  obtain ⟨keys, rfl⟩ := hs'
  have hnext := Yaml.Reads.indicator h hpeek hch
  exact hnext.weaken.pushStart ht

theorem readFlowEnd_reads (h : s.Reads text) (ht : t.IsModest) (hstart : t.mayStart = false) :
    StepReads text (s.readFlowEnd t) := by
  refine s.dropKey_keepsText.bind fun s' hs' => ?_
  obtain ⟨keys, rfl⟩ := hs'
  refine Yields.ite (fun _ => trivial) fun _ => ?_
  exact (Yaml.Reads.mono h s.cursor.next_suffix).pushPlain ht hstart

theorem readFlowEntry_reads (h : s.Reads text) : StepReads text s.readFlowEntry := by
  refine s.dropKey_keepsText.bind fun s' hs' => ?_
  obtain ⟨keys, rfl⟩ := hs'
  exact (Yaml.Reads.mono h s.cursor.next_suffix).pushPlain (t := .flowEntry) trivial rfl

/-- The block that an indicator opens, if it opens one. -/
theorem reads_ite_startBlock {rest : List Char} {slack : Nat} (h : Yaml.Reads text s.tokens.toList rest (slack + 1))
    (ht : t.IsModest) :
    Yaml.Reads text (if s.flow = 0 then s.startBlock t else s).tokens.toList rest slack := by
  split
  · exact h.startBlock ht
  · exact h.weaken

theorem ite_startBlock_cursor (s : Tokenizer) (t : Token) :
    (if s.flow = 0 then s.startBlock t else s).cursor = s.cursor := by
  split
  · exact s.startBlock_cursor t
  · rfl

theorem readBlockEntry_reads (h : s.Reads text) (hpeek : s.cursor.peek = some '-') :
    StepReads text s.readBlockEntry := by
  have hnext := Yaml.Reads.indicator h hpeek rfl
  have hblock := reads_ite_startBlock (t := .blockSequenceStart) hnext trivial
  rw [← ite_startBlock_cursor s .blockSequenceStart] at hblock
  unfold readBlockEntry
  refine Yields.ite (fun _ => trivial) fun _ => ?_
  refine (dropKey_keepsText _).bind fun s' hs' => ?_
  obtain ⟨keys, rfl⟩ := hs'
  exact hblock.pushStart (t := .blockEntry) trivial

theorem readKey_reads (h : s.Reads text) (hpeek : s.cursor.peek = some '?') : StepReads text s.readKey := by
  have hnext := Yaml.Reads.indicator h hpeek rfl
  have hblock := reads_ite_startBlock (t := .blockMappingStart) hnext trivial
  rw [← ite_startBlock_cursor s .blockMappingStart] at hblock
  unfold readKey
  refine Yields.ite (fun _ => trivial) fun _ => ?_
  refine (dropKey_keepsText _).bind fun s' hs' => ?_
  obtain ⟨keys, rfl⟩ := hs'
  exact hblock.pushStart (t := .key) trivial

/-- The colon pays for the key and for the mapping that it may start. -/
theorem readValue_reads (h : s.Reads text) (hpeek : s.cursor.peek = some ':') : StepReads text s.readValue := by
  have hnext := Yaml.Reads.indicator h hpeek rfl
  unfold readValue
  split
  · next level key _ =>
    have hkey := hnext.insert key.position (t := .key) trivial
    have hmapping := hkey.insert key.position (t := .blockMappingStart) trivial
    dsimp only
    split
    · unfold openBlock?
      dsimp only
      split
      · next s' hopen =>
        split at hopen
        · cases hopen
          exact hmapping.pushPlain (t := .value) trivial rfl
        · cases hopen
      · exact hkey.weaken.pushPlain (t := .value) trivial rfl
    · exact hkey.weaken.pushPlain (t := .value) trivial rfl
  · have hblock := reads_ite_startBlock (t := .blockMappingStart) hnext trivial
    rw [← ite_startBlock_cursor s .blockMappingStart] at hblock
    refine Yields.ite (fun _ => trivial) fun _ => ?_
    refine (dropKey_keepsText _).bind fun s' hs' => ?_
    obtain ⟨keys, rfl⟩ := hs'
    exact hblock.weaken.pushPlain (t := .value) trivial rfl

theorem readKeyStart_reads (h : s.Reads text) {read : Cursor → Except Error (Token × Cursor)}
    (hread : Yields Error.IsInvalid
      (fun (t, after) => (t.IsModest ∧ t.mayStart = false) ∧ after.rest <:+ s.cursor.rest) (read s.cursor)) :
    StepReads text (s.readKeyStart read) := by
  refine s.saveKey_keepsText.bind fun s' hs' => ?_
  obtain ⟨keys, rfl⟩ := hs'
  refine hread.bind fun found hfound => ?_
  obtain ⟨token, cursor⟩ := found
  obtain ⟨⟨ht, hstart⟩, hsuffix⟩ := hfound
  exact (Yaml.Reads.mono h hsuffix).pushPlain ht hstart

theorem readBlockScalar_reads (h : s.Reads text) (folded : Bool) : StepReads text (s.readBlockScalar folded) := by
  refine (dropKey_keepsText _).bind fun s' hs' => ?_
  obtain ⟨keys, rfl⟩ := hs'
  refine (blockScalar_readsOn folded _ _).bind fun read hread => ?_
  exact (Yaml.Reads.mono h hread).pushPlain (t := .scalar _ false) (fun hplain => by cases hplain) rfl

/-- A plain scalar is made of characters of the text. -/
theorem isModestScalar_plainScalar (htext : IsModest text) (flow : Bool) (indent : Int) {c : Cursor}
    (hsuffix : c.rest <:+ text) : IsModestScalar (plainScalar flow indent c).1 where
  left := by
    obtain ⟨-, hcount⟩ := plainScalar_spec (d := '<') ⟨rfl, by decide⟩ flow indent c
    have hnone : c.rest.count '<' = 0 := List.count_eq_zero.2 fun hmem => htext.noMerge (hsuffix.subset hmem)
    rw [← List.count_eq_zero]
    omega
  right := by
    obtain ⟨-, hcount⟩ := plainScalar_spec (d := ':') ⟨rfl, by decide⟩ flow indent c
    have hrest : c.rest.count ':' ≤ text.count ':' := hsuffix.sublist.count_le ':'
    have hindicators : text.count ':' ≤ text.countP isIndicator := by
      refine List.countP_mono_left fun ch _ hch => ?_
      rw [eq_of_beq hch]
      rfl
    have hfew := htext.fewIndicators
    omega

theorem readPlain_reads (htext : IsModest text) (h : s.Reads text) : StepReads text s.readPlain := by
  refine s.saveKey_keepsText.bind fun s' hs' => ?_
  obtain ⟨keys, rfl⟩ := hs'
  obtain ⟨hsuffix, -⟩ := plainScalar_spec (d := ':') ⟨rfl, by decide⟩ (s.flow != 0) (s.indent + 1) s.cursor
  have hmodest := isModestScalar_plainScalar htext (s.flow != 0) (s.indent + 1) h.suffix
  refine (Yaml.Reads.mono h hsuffix).pushPlain (t := .scalar _ true) (fun _ => ?_) rfl
  rw [String.toList_ofList]
  exact hmodest

theorem readToken_reads (htext : IsModest text) (h : s.Reads text) (hpeek : s.cursor.peek = some ch) :
    StepReads text (s.readToken ch) := by
  have hrest := Cursor.rest_of_peek hpeek
  have hescape : ¬ ['\\', 'U'] <:+: s.cursor.rest := fun hstretch =>
    htext.noLongEscape (hstretch.trans h.suffix.isInfix)
  have hscalar (s : String) : (Token.scalar s false).IsModest := fun hplain => by cases hplain
  have hquoted (double : Bool) : StepReads text (s.readKeyStart fun c =>
      quotedScalar double c >>= fun read => pure (.scalar (String.ofList read.1) false, read.2)) :=
    readKeyStart_reads h ((quotedScalar_readsOn double hescape).bind fun read hread => ⟨⟨hscalar _, rfl⟩, hread⟩)
  unfold readToken
  dsimp only
  refine Yields.ite (fun _ => readDirective_reads h) fun _ => ?_
  refine Yields.ite (fun _ => readDocumentMark_reads h trivial rfl) fun _ => ?_
  refine Yields.ite (fun _ => readDocumentMark_reads h trivial rfl) fun _ => ?_
  refine Yields.ite (fun hch => ?_) fun _ => ?_
  · exact readFlowStart_reads h hpeek (eq_of_beq hch ▸ rfl) trivial
  refine Yields.ite (fun hch => ?_) fun _ => ?_
  · exact readFlowStart_reads h hpeek (eq_of_beq hch ▸ rfl) trivial
  refine Yields.ite (fun _ => readFlowEnd_reads h trivial rfl) fun _ => ?_
  refine Yields.ite (fun _ => readFlowEnd_reads h trivial rfl) fun _ => ?_
  refine Yields.ite (fun _ => readFlowEntry_reads h) fun _ => ?_
  refine Yields.ite (fun hch => ?_) fun _ => ?_
  · exact readBlockEntry_reads h (by rw [hpeek, eq_of_beq (Bool.and_eq_true_iff.1 hch).1])
  refine Yields.ite (fun hch => ?_) fun _ => ?_
  · exact readKey_reads h (by rw [hpeek, eq_of_beq (Bool.and_eq_true_iff.1 hch).1])
  refine Yields.ite (fun hch => ?_) fun _ => ?_
  · exact readValue_reads h (by rw [hpeek, eq_of_beq (Bool.and_eq_true_iff.1 hch).1])
  refine Yields.ite (fun _ => readKeyStart_reads h ?_) fun _ => ?_
  · exact (anchorName_readsOn s.cursor).bind fun read hread => ⟨⟨trivial, rfl⟩, hread⟩
  refine Yields.ite (fun _ => readKeyStart_reads h ?_) fun _ => ?_
  · exact (anchorName_readsOn s.cursor).bind fun read hread => ⟨⟨trivial, rfl⟩, hread⟩
  refine Yields.ite (fun hch => ?_) fun _ => ?_
  · have hmem : '!' ∈ s.cursor.rest := by
      rw [hrest, eq_of_beq hch]
      exact List.mem_cons_self
    exact absurd (h.suffix.subset hmem) htext.noTag
  refine Yields.ite (fun _ => readBlockScalar_reads h false) fun _ => ?_
  refine Yields.ite (fun _ => readBlockScalar_reads h true) fun _ => ?_
  refine Yields.ite (fun _ => hquoted false) fun _ => ?_
  refine Yields.ite (fun _ => hquoted true) fun _ => ?_
  exact Yields.ite (fun _ => readPlain_reads htext h) fun _ => trivial

theorem read_reads (htext : IsModest text) (h : s.Reads text) : StepReads text s.read := by
  have hnext : s.toNextToken.Reads text := Yaml.Reads.mono h s.toNextToken_suffix
  refine (dropStale_keepsText _).bind fun s' hs' => ?_
  obtain ⟨keys, rfl⟩ := hs'
  -- The state after the blocks are closed.
  generalize hstate : ({ s.toNextToken with keys } : Tokenizer) = s'
  have hs' : s'.Reads text := hstate ▸ hnext
  have hunwind := reads_unwind hs' s'.cursor.column
  dsimp only
  generalize s'.unwind s'.cursor.column = closed at hunwind ⊢
  split
  · exact readEnd_reads hunwind
  · next ch hpeek => exact readToken_reads htext hunwind hpeek

/-! ### All tokens -/

theorem settled_prefix (s : Tokenizer) : s.settled <+: s.tokens.toList := by
  unfold settled
  split
  · exact List.prefix_refl _
  · exact List.take_prefix _ _

theorem Reads.isModestStream (htext : IsModest text) (h : s.Reads text) {tokens : List Token}
    (htokens : tokens <+: s.tokens.toList) {fault : Option Error} (hfault : ∀ e, fault = some e → e.IsInvalid) :
    IsModestStream tokens fault where
  modest := fun t ht => h.modest t (htokens.subset ht)
  few := by
    have hcount : tokens.countP Token.mayStart ≤ s.tokens.toList.countP Token.mayStart := htokens.sublist.countP_le
    have hpaid := h.paid
    have hindicators := htext.fewIndicators
    omega
  fault := hfault

theorem run_isModestStream (htext : IsModest text) (fuel : Nat) (h : s.Reads text) :
    IsModestStream (s.run fuel).1 (s.run fuel).2 := by
  have hsettled {s : Tokenizer} (h : s.Reads text) {e : Error} (he : e.IsInvalid) :
      IsModestStream s.settled (some e) :=
    h.isModestStream htext s.settled_prefix fun _ hsome => Option.some.inj hsome ▸ he
  induction fuel generalizing s with
  | zero => exact hsettled h trivial
  | succ fuel ih =>
    unfold run
    split
    · next e herror => exact hsettled h (s.dropStale_keepsText.of_error herror)
    · next s' hok =>
      obtain ⟨keys, rfl⟩ := s.dropStale_keepsText.of_ok hok
      have hstep : StepReads text (Tokenizer.read { s with keys }) := read_reads htext h
      split
      · next e herror => exact hsettled (s := { s with keys }) h (hstep.of_error herror)
      · next s' hok =>
        have hread := hstep.of_ok hok
        split
        · exact hread.isModestStream htext (List.prefix_refl _) fun _ hnone => by cases hnone
        · exact ih hread

end Tokenizer

theorem tokens_isModestStream (htext : IsModest text) :
    IsModestStream (Yaml.tokens text).1 (Yaml.tokens text).2 :=
  Tokenizer.run_isModestStream htext _ (Reads.start text)

end TestDiscovery.Yaml
