-- SUMMARY: Reading an anchor or a directive moves on in the text, and never breaks down.
import TestDiscovery.Proofs.Yaml.Scalar

/-!
# Reading names

Anchors and directives are refused where they break a rule, and for no other reason.
-/

namespace TestDiscovery.Yaml

variable (c : Cursor)

theorem anchorName_readsOn : ReadsOn c.rest (anchorName c) := by
  have hname := (c.next.span_suffix isNameChar).trans c.next_suffix
  unfold anchorName
  refine Yields.ite (fun _ => trivial) fun _ => ?_
  exact Yields.ite (fun _ => hname) fun _ => trivial

/-! ## Directives -/

theorem digits_readsOn : ReadsOn c.rest (digits c) := by
  have hrun := c.span_suffix Text.isDigit
  unfold digits
  exact Yields.ite (fun _ => trivial) fun _ => hrun

theorem versionDirective_readsOn : ReadsOn c.rest (versionDirective c) := by
  unfold versionDirective
  refine (digits_readsOn c.skipSpaces).bind fun major hmajor => ?_
  refine Yields.ite (fun _ => trivial) fun _ => ?_
  refine (digits_readsOn major.2.next).bind fun minor hminor => ?_
  refine Yields.ite (fun _ => ?_) fun _ => trivial
  exact ((hminor.trans major.2.next_suffix).trans hmajor).trans c.skipSpaces_suffix

theorem tagHandle_readsOn : ReadsOn c.rest (tagHandle c) := by
  have hname := (c.next.span_suffix isNameChar).trans c.next_suffix
  unfold tagHandle
  refine Yields.ite (fun _ => trivial) fun _ => ?_
  refine Yields.ite (fun _ => c.next_suffix) fun _ => ?_
  exact Yields.ite (fun _ => (Cursor.next_suffix _).trans hname) fun _ => trivial

theorem escapedBytes_failsOnly (s : List Char) : FailsOnly Error.IsInvalid (escapedBytes s) := by
  induction s using escapedBytes.induct with
  | case1 a b r hdigits ih =>
    rw [escapedBytes, if_pos hdigits]
    exact Yields.map ih fun _ _ => trivial
  | case2 a b r hdigits =>
    rw [escapedBytes, if_neg hdigits]
    trivial
  | case3 r hshort =>
    rw [escapedBytes]
    · trivial
    · exact hshort
  | case4 s hlong hplain =>
    rw [escapedBytes]
    · trivial
    · exact hlong
    · exact hplain

theorem tagTextFrom_readsOn (fuel : Nat) : ReadsOn c.rest (tagTextFrom fuel c) := by
  induction fuel generalizing c with
  | zero => exact c.span_suffix isTagChar
  | succ fuel ih =>
    have hrun := c.span_suffix isTagChar
    unfold tagTextFrom
    refine Yields.ite (fun _ => ?_) fun _ => hrun
    refine Yields.bind (escapedBytes_failsOnly _) fun bytes _ => ?_
    cases Text.Utf8.decode bytes with
    | error e => trivial
    | ok escaped => exact (ih _).bind fun more hmore => (hmore.trans (Cursor.advance_suffix _ _)).trans hrun

theorem tagText_readsOn : ReadsOn c.rest (tagText c) := by
  unfold tagText
  refine (tagTextFrom_readsOn c _).bind fun read hread => ?_
  exact Yields.ite (fun _ => trivial) fun _ => hread

theorem handleDirective_readsOn : ReadsOn c.rest (handleDirective c) := by
  unfold handleDirective
  refine (tagHandle_readsOn c.skipSpaces).bind fun handle hhandle => ?_
  refine Yields.ite (fun _ => trivial) fun _ => ?_
  refine (tagText_readsOn handle.2.skipSpaces).bind fun start hstart => ?_
  refine Yields.ite (fun _ => ?_) fun _ => trivial
  exact ((hstart.trans handle.2.skipSpaces_suffix).trans hhandle).trans c.skipSpaces_suffix

theorem directiveToken_readsOn :
    Yields Error.IsInvalid (fun read => (∃ d, read.1 = .directive d) ∧ read.2.rest <:+ c.rest) (directiveToken c) := by
  have hname := (c.next.span_suffix isNameChar).trans c.next_suffix
  -- What follows the parameters, which are those of a version, of a handle, or not read at all.
  have hline (directive : Directive) (after : Cursor) (hafter : after.rest <:+ (c.next.span isNameChar).2.rest) :
      Yields Error.IsInvalid (fun read => (∃ d, read.1 = .directive d) ∧ read.2.rest <:+ c.rest)
        (let after := after.skipSpaces.skipComment
        if endsLine after.peek then pure (Token.directive directive, after.lineBreak.2) else .error .badToken) := by
    have hcomment : after.skipSpaces.skipComment.rest <:+ c.rest :=
      (Cursor.skipComment_suffix _).trans ((Cursor.skipSpaces_suffix _).trans (hafter.trans hname))
    exact Yields.ite (fun _ => ⟨⟨directive, rfl⟩, (Cursor.lineBreak_suffix _).trans hcomment⟩) fun _ => trivial
  unfold directiveToken
  refine Yields.ite (fun _ => trivial) fun _ => ?_
  split
  · exact (versionDirective_readsOn _).bind fun read hread => hline read.1 read.2 hread
  · exact (handleDirective_readsOn _).bind fun read hread => hline read.1 read.2 hread
  · exact hline .other _ (Cursor.skipLine_suffix _)

end TestDiscovery.Yaml
