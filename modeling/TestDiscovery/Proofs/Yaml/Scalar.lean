-- SUMMARY: Reading a scalar moves on in the text, and breaks down only at an escape with eight digits.
import Mathlib.Data.List.TakeWhile
import TestDiscovery.Proofs.Outcome
import TestDiscovery.Proofs.Yaml.Cursor
import TestDiscovery.Yaml.Token.Scalar

/-!
# Reading scalars

A scalar is refused where it breaks a rule. The one escape that can name a character beyond every range has eight
digits; without it no scalar breaks down. A plain scalar is made of characters of the text and of blanks, each character
of the text at most once.
-/

namespace TestDiscovery.Yaml

/-- The error breaks a rule. -/
def Error.IsInvalid : Error → Prop
  | invalid _ => True
  | breakdown _ => False

/-- What is left after reading is the end of what was left before, and what cannot be read breaks a rule. -/
def ReadsOn (rest : List Char) (read : Except Error (α × Cursor)) : Prop :=
  Yields Error.IsInvalid (fun (_, after) => after.rest <:+ rest) read

variable {c : Cursor} {d : Char} {fuel : Nat}

/-! ## Plain scalars -/

theorem plainRun_prefix (flow : Bool) (s : List Char) : plainRun flow s <+: s := by
  induction s with
  | nil => exact List.prefix_refl _
  | cons ch r ih =>
    unfold plainRun
    split
    · exact List.nil_prefix
    · exact (List.prefix_cons_inj ch).2 ih

/-- The character is no blank of a plain scalar. -/
def IsInk (d : Char) : Prop := isBreak d = false ∧ d ≠ ' '

theorem plainBreaks_spec (hd : IsInk d) (fuel : Nat) (c : Cursor) :
    (plainBreaks fuel c).2.rest <:+ c.rest ∧ ∀ more, (plainBreaks fuel c).1 = some more → d ∉ more := by
  induction fuel generalizing c with
  | zero => simp [plainBreaks]
  | succ fuel ih =>
    unfold plainBreaks
    split
    · obtain ⟨hsuffix, hmore⟩ := ih c.next
      exact ⟨hsuffix.trans c.next_suffix, hmore⟩
    · split
      · dsimp only
        split
        · exact ⟨c.lineBreak_suffix, fun _ h => by cases h⟩
        · obtain ⟨hsuffix, hmore⟩ := ih c.lineBreak.2
          refine ⟨hsuffix.trans c.lineBreak_suffix, ?_⟩
          intro more h
          obtain ⟨later, hlater, rfl⟩ := Option.map_eq_some_iff.1 h
          rw [List.mem_append, not_or]
          exact ⟨c.not_mem_lineBreak hd.1, hmore later hlater⟩
      · exact ⟨List.suffix_refl _, fun _ h => by cases h; exact List.not_mem_nil⟩

theorem not_mem_fold (hd : IsInk d) {first more : List Char} (hfirst : d ∉ first) (hmore : d ∉ more) :
    d ∉ fold first more := by
  unfold fold
  split
  · rw [List.mem_append, not_or]
    exact ⟨hfirst, hmore⟩
  · split
    · simpa using hd.2
    · exact hmore

theorem plainSpaces_spec (hd : IsInk d) (c : Cursor) :
    (plainSpaces c).2.1.rest <:+ c.rest ∧ d ∉ (plainSpaces c).1 := by
  have hspan := c.span_suffix (· == ' ')
  unfold plainSpaces
  dsimp only
  split
  · have hbreak := (c.span (· == ' ')).2.lineBreak_suffix
    split
    · exact ⟨hbreak.trans hspan, List.not_mem_nil⟩
    · obtain ⟨hsuffix, hmore⟩ := plainBreaks_spec hd ((c.span (· == ' ')).2.lineBreak.2.rest.length + 1)
        (c.span (· == ' ')).2.lineBreak.2
      split
      · next more after heq =>
        rw [heq] at hsuffix hmore
        exact ⟨(hsuffix.trans hbreak).trans hspan, not_mem_fold hd (Cursor.not_mem_lineBreak _ hd.1) (hmore more rfl)⟩
      · next after heq =>
        rw [heq] at hsuffix
        exact ⟨(hsuffix.trans hbreak).trans hspan, List.not_mem_nil⟩
  · refine ⟨hspan, ?_⟩
    intro hmem
    have hspace := List.mem_takeWhile_imp hmem
    exact hd.2 (eq_of_beq hspace)

theorem plainFrom_spec (hd : IsInk d) (flow : Bool) (indent : Int) (fuel : Nat) (before : List Char) (ended : Bool)
    (c : Cursor) :
    (plainFrom flow indent fuel before ended c).2.1.rest <:+ c.rest ∧
      (plainFrom flow indent fuel before ended c).1.count d +
        (plainFrom flow indent fuel before ended c).2.1.rest.count d ≤ before.count d + c.rest.count d := by
  induction fuel generalizing before ended c with
  | zero => simp [plainFrom]
  | succ fuel ih =>
    unfold plainFrom
    dsimp only
    have hrun : (if c.peek = some '#' then [] else plainRun flow c.rest) <+: c.rest := by
      split
      · exact List.nil_prefix
      · exact plainRun_prefix flow c.rest
    generalize (if c.peek = some '#' then [] else plainRun flow c.rest) = run at hrun ⊢
    have hcut : c.rest.count d = run.count d + (c.advance run.length).rest.count d := by
      obtain ⟨left, hleft⟩ := hrun
      rw [c.rest_advance, ← hleft, List.drop_left, List.count_append]
    have hadvance := c.advance_suffix run.length
    obtain ⟨hsuffix, hspaces⟩ := plainSpaces_spec hd (c.advance run.length)
    generalize plainSpaces (c.advance run.length) = spaced at hsuffix hspaces ⊢
    obtain ⟨spaces, after, ended'⟩ := spaced
    dsimp only at hsuffix hspaces ⊢
    have hafter := hsuffix.sublist.count_le d
    split
    · exact ⟨List.suffix_refl _, by simp⟩
    · split
      · refine ⟨hsuffix.trans hadvance, ?_⟩
        dsimp only
        rw [List.count_append]
        omega
      · have hrest := ih spaces ended' after
        generalize plainFrom flow indent fuel spaces ended' after = read at hrest ⊢
        obtain ⟨more, final, ended⟩ := read
        obtain ⟨hfinal, hcount⟩ := hrest
        refine ⟨(hfinal.trans hsuffix).trans hadvance, ?_⟩
        rw [List.count_eq_zero.2 hspaces] at hcount
        dsimp only at hcount ⊢
        rw [List.count_append, List.count_append]
        omega

/-- What is in a plain scalar is taken from the text. -/
theorem plainScalar_spec (hd : IsInk d) (flow : Bool) (indent : Int) (c : Cursor) :
    (plainScalar flow indent c).2.1.rest <:+ c.rest ∧ (plainScalar flow indent c).1.count d ≤ c.rest.count d := by
  obtain ⟨hsuffix, hcount⟩ := plainFrom_spec hd flow indent (c.rest.length + 1) [] false c
  rw [List.count_nil, Nat.zero_add] at hcount
  exact ⟨hsuffix, Nat.le_of_add_right_le hcount⟩

/-! ## Quoted scalars -/

theorem quotedBreaks_readsOn (fuel : Nat) (c : Cursor) : ReadsOn c.rest (quotedBreaks fuel c) := by
  induction fuel generalizing c with
  | zero => exact List.suffix_refl _
  | succ fuel ih =>
    have hskip := c.skipWhile_suffix isSpace
    unfold quotedBreaks
    refine Yields.ite (fun _ => trivial) fun _ => ?_
    refine Yields.ite (fun _ => ?_) fun _ => hskip
    refine (ih _).bind fun read hread => ?_
    exact (hread.trans (Cursor.lineBreak_suffix _)).trans hskip

theorem quotedSpaces_readsOn (c : Cursor) : ReadsOn c.rest (quotedSpaces c) := by
  have hspan := c.span_suffix isSpace
  unfold quotedSpaces
  dsimp only
  split
  · trivial
  · refine Yields.ite (fun _ => ?_) fun _ => hspan
    refine (quotedBreaks_readsOn _ _).bind fun read hread => ?_
    exact (hread.trans (Cursor.lineBreak_suffix _)).trans hspan

/-! ### Escapes -/

theorem digitsValue?_lt {base : Nat} {s : List Char} {n : Nat} (h : Text.digitsValue? base s = some n) :
    n < Nat.pow base s.length := by
  have hfold (acc : Option Nat) (s : List Char) (n : Nat)
      (h : s.foldl (fun acc c => acc.bind fun n =>
        (Text.digit? c).bind fun d => if d < base then some (n * base + d) else none) acc = some n) :
      ∃ m, acc = some m ∧ n < (m + 1) * Nat.pow base s.length := by
    induction s generalizing acc with
    | nil => exact ⟨n, h, by simp⟩
    | cons c s ih =>
      obtain ⟨m, hm, hn⟩ := ih _ h
      obtain ⟨k, rfl, hk⟩ := Option.bind_eq_some_iff.1 hm
      obtain ⟨d, -, hd⟩ := Option.bind_eq_some_iff.1 hk
      obtain ⟨hlt, hsum⟩ := Option.ite_none_right_eq_some.1 hd
      obtain rfl := Option.some.inj hsum
      refine ⟨k, rfl, Nat.lt_of_lt_of_le hn ?_⟩
      have hstep : k * base + d + 1 ≤ (k + 1) * base := by
        rw [Nat.add_mul]
        omega
      calc (k * base + d + 1) * Nat.pow base s.length ≤ (k + 1) * base * Nat.pow base s.length :=
            Nat.mul_le_mul_right _ hstep
        _ = (k + 1) * (Nat.pow base s.length * base) := by rw [Nat.mul_assoc, Nat.mul_comm base]
  obtain ⟨m, hm, hn⟩ := hfold (some 0) s n h
  obtain rfl := Option.some.inj hm
  simpa using hn

theorem escapedChar_failsOnly {code : Nat} (h : code < 0x80000000) : FailsOnly Error.IsInvalid (escapedChar code) := by
  unfold escapedChar
  rw [if_neg (Nat.not_le.2 h)]
  refine Yields.ite (fun _ => trivial) fun _ => ?_
  exact Yields.ite (fun _ => trivial) fun _ => trivial

/-- Four hexadecimal digits name no character beyond every range. -/
theorem hexValue_lt {code : List Char} (h : code.length ≤ 4) : hexValue code < 0x80000000 := by
  unfold hexValue
  cases hvalue : Text.digitsValue? 16 code with
  | none => decide
  | some n =>
    have hlt := digitsValue?_lt hvalue
    have hpow : Nat.pow 16 code.length ≤ Nat.pow 16 4 := Nat.pow_le_pow_right (by decide) h
    exact Nat.lt_of_lt_of_le hlt (Nat.le_trans hpow (by decide))

theorem escape_readsOn (h : c.peek ≠ some 'U') : ReadsOn c.rest (escape c) := by
  unfold escape
  split
  · trivial
  · next ch hpeek =>
    split
    · exact c.next_suffix
    · next width _ hwidth =>
      have hfour : width ≤ 4 := by
        unfold escapeWidth at hwidth
        split at hwidth
        · cases hwidth
          decide
        · cases hwidth
          decide
        · exact absurd hpeek h
        · cases hwidth
      dsimp only
      refine Yields.ite (fun hdigits => ?_) fun _ => trivial
      have hlength : (c.next.rest.take width).length ≤ 4 := Nat.le_trans (List.length_take_le _ _) hfour
      refine Yields.bind (escapedChar_failsOnly (hexValue_lt hlength)) fun e _ => ?_
      exact (c.next.advance_suffix width).trans c.next_suffix
    · refine Yields.ite (fun _ => ?_) fun _ => trivial
      exact (quotedBreaks_readsOn _ _).mono (fun _ => id) fun _ hread => hread.trans c.lineBreak_suffix

theorem quotedFrom_readsOn (double : Bool) (fuel : Nat) (c : Cursor) (h : ¬ ['\\', 'U'] <:+: c.rest) :
    ReadsOn c.rest (quotedFrom double fuel c) := by
  induction fuel generalizing c with
  | zero => trivial
  | succ fuel ih =>
    unfold quotedFrom
    -- What follows a run, whose quotes are perhaps closed.
    have hrun (here : List Char) (after : Cursor) (closed : Bool) (hread : after.rest <:+ c.rest) :
        ReadsOn c.rest (if closed then pure (here, after)
          else quotedFrom double fuel after >>= fun read => pure (here ++ read.1, read.2)) := by
      have hafter : ¬ ['\\', 'U'] <:+: after.rest := fun hstretch => h (hstretch.trans hread.isInfix)
      refine Yields.ite (fun _ => hread) fun _ => ?_
      exact (ih after hafter).bind fun read hmore => hmore.trans hread
    split
    · trivial
    · next ch hpeek =>
      refine Yields.ite (fun _ => hrun ['\''] _ false (c.advance_suffix 2)) fun _ => ?_
      refine Yields.ite (fun _ => hrun [] _ true c.next_suffix) fun _ => ?_
      refine Yields.ite (fun hescape => ?_) fun _ => ?_
      · obtain rfl : ch = '\\' := eq_of_beq (Bool.and_eq_true _ _ ▸ hescape).1
        have hletter : c.next.peek ≠ some 'U' := by
          intro hletter
          rw [Cursor.rest_of_peek hpeek, Cursor.rest_of_peek hletter] at h
          exact h (List.prefix_append ['\\', 'U'] _).isInfix
        exact (escape_readsOn hletter).bind fun read hread =>
          hrun read.1 read.2 false (hread.trans c.next_suffix)
      · refine Yields.ite (fun _ => ?_) fun _ => hrun [ch] _ false c.next_suffix
        exact (quotedSpaces_readsOn c).bind fun read hread => hrun read.1 read.2 false hread

theorem quotedScalar_readsOn (double : Bool) (h : ¬ ['\\', 'U'] <:+: c.rest) :
    ReadsOn c.rest (quotedScalar double c) := by
  have hnext : ¬ ['\\', 'U'] <:+: c.next.rest := fun hstretch => h (hstretch.trans c.next_suffix.isInfix)
  exact (quotedFrom_readsOn double _ c.next hnext).mono (fun _ => id) fun _ hread => hread.trans c.next_suffix

/-! ## Blocks -/

theorem blockHeader_yields (c : Cursor) :
    Yields Error.IsInvalid (fun header => header.2.2.rest <:+ c.rest) (blockHeader c) := by
  -- What follows the indicators, wherever they end.
  have hrest (chomping : Chomping) (digit : Option Nat) (after : Cursor) (hafter : after.rest <:+ c.rest) :
      Yields Error.IsInvalid (fun header => header.2.2.rest <:+ c.rest) (do
        if digit = some 0 || !endsField after.peek then .error .badToken
        let after := after.skipSpaces.skipComment
        if endsLine after.peek then return (chomping, digit, after.lineBreak.2) else .error .badToken) := by
    have hcomment : after.skipSpaces.skipComment.rest <:+ c.rest :=
      (Cursor.skipComment_suffix _).trans ((Cursor.skipSpaces_suffix _).trans hafter)
    refine Yields.ite (fun _ => trivial) fun _ => ?_
    exact Yields.ite (fun _ => (Cursor.lineBreak_suffix _).trans hcomment) fun _ => trivial
  have hsecond : c.next.next.rest <:+ c.rest := c.next.next_suffix.trans c.next_suffix
  unfold blockHeader
  cases chompingOf c.peek with
  | some chomping =>
    cases indicatorDigit c.next.peek with
    | some digit => exact hrest chomping (some digit) _ hsecond
    | none => exact hrest chomping none _ c.next_suffix
  | none =>
    cases indicatorDigit c.peek with
    | some digit =>
      cases chompingOf c.next.peek with
      | some chomping => exact hrest chomping (some digit) _ hsecond
      | none => exact hrest .clip (some digit) _ c.next_suffix
    | none => exact hrest .clip none _ (List.suffix_refl _)

theorem leadingBreaks_suffix (fuel : Nat) (c : Cursor) (widest : Nat) :
    (leadingBreaks fuel c widest).2.2.rest <:+ c.rest := by
  induction fuel generalizing c widest with
  | zero => exact List.suffix_refl _
  | succ fuel ih =>
    unfold leadingBreaks
    split
    · split
      · exact (ih _ _).trans c.lineBreak_suffix
      · split
        · exact (ih _ _).trans c.next_suffix
        · exact List.suffix_refl _
    · exact List.suffix_refl _

theorem blockBreaks_suffix (indent fuel : Nat) (c : Cursor) : (blockBreaks indent fuel c).2.rest <:+ c.rest := by
  induction fuel generalizing c with
  | zero => exact List.suffix_refl _
  | succ fuel ih =>
    have hindent : (skipIndent indent c).rest <:+ c.rest := c.advance_suffix _
    unfold blockBreaks
    dsimp only
    split
    · exact ((ih _).trans (Cursor.lineBreak_suffix _)).trans hindent
    · exact hindent

theorem blockLines_suffix (folded : Bool) (indent fuel : Nat) (breaks : List Char) (c : Cursor) :
    (blockLines folded indent fuel breaks c).2.2.2.rest <:+ c.rest := by
  induction fuel generalizing breaks c with
  | zero => exact List.suffix_refl _
  | succ fuel ih =>
    have hline := c.span_suffix fun ch => !isBreak ch
    have hbreak := (c.span fun ch => !isBreak ch).2.lineBreak_suffix
    have hbreaks := blockBreaks_suffix indent ((c.span fun ch => !isBreak ch).2.lineBreak.2.rest.length + 1)
      (c.span fun ch => !isBreak ch).2.lineBreak.2
    have hafter := (hbreaks.trans hbreak).trans hline
    unfold blockLines
    dsimp only
    split
    · exact List.suffix_refl _
    · split
      · exact (ih _ _).trans hafter
      · exact hafter

theorem blockScalar_readsOn (folded : Bool) (outer : Int) (c : Cursor) :
    ReadsOn c.rest (blockScalar folded outer c) := by
  unfold blockScalar
  refine (blockHeader_yields c.next).bind fun header hheader => ?_
  obtain ⟨chomping, digit, after⟩ := header
  have hafter : after.rest <:+ c.rest := hheader.trans c.next_suffix
  -- The lines of the block, wherever they start.
  have hlines (indent : Nat) (breaks : List Char) (start : Cursor) (hstart : start.rest <:+ c.rest) :
      ReadsOn c.rest
        (let read := blockLines folded indent (start.rest.length + 1) breaks start
        pure (read.1 ++ (if chomping = .strip then [] else read.2.1) ++ (if chomping = .keep then read.2.2.1 else []),
          read.2.2.2)) :=
    (blockLines_suffix folded indent (start.rest.length + 1) breaks start).trans hstart
  cases digit with
  | none =>
    have hstart := leadingBreaks_suffix (after.rest.length + 1) after 0
    dsimp only
    generalize leadingBreaks (after.rest.length + 1) after 0 = start at hstart ⊢
    exact hlines _ start.1 start.2.2 (hstart.trans hafter)
  | some digit =>
    dsimp only
    generalize (max (outer + 1) 1).toNat + digit - 1 = indent
    have hstart := blockBreaks_suffix indent (after.rest.length + 1) after
    generalize blockBreaks indent (after.rest.length + 1) after = start at hstart ⊢
    exact hlines _ start.1 start.2 (hstart.trans hafter)

end TestDiscovery.Yaml
