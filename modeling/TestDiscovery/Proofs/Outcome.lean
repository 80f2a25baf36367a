-- SUMMARY: What the values and the errors of a computation have in common, from what its steps have.
/-!
# Values and errors

A computation that may fail is described by a property of its values and a property of its errors. A sequence of steps
is described step by step: what a step gives is known to the next one, and each error is that of some step.
-/

namespace TestDiscovery

variable {ε ε' α β : Type} {P P' : ε → Prop} {Q Q' : α → Prop} {R : β → Prop} {x : Except ε α}

/-- Each value has one property and each error has another. -/
def Yields (P : ε → Prop) (Q : α → Prop) : Except ε α → Prop
  | .ok a => Q a
  | .error e => P e

/-- Each error has a property. -/
def FailsOnly (P : ε → Prop) (x : Except ε α) : Prop := Yields P (fun _ => True) x

namespace Yields

theorem ok {a : α} (h : Q a) : Yields P Q (.ok a : Except ε α) := h

theorem pure {a : α} (h : Q a) : Yields P Q (Pure.pure a : Except ε α) := h

theorem error {e : ε} (h : P e) : Yields P Q (.error e : Except ε α) := h

theorem of_ok {a : α} (h : Yields P Q x) (hx : x = .ok a) : Q a := by
  subst hx
  exact h

theorem of_error {e : ε} (h : Yields P Q x) (hx : x = .error e) : P e := by
  subst hx
  exact h

theorem mono (h : Yields P Q x) (hP : ∀ e, P e → P' e) (hQ : ∀ a, Q a → Q' a) : Yields P' Q' x := by
  cases x with
  | ok a => exact hQ a h
  | error e => exact hP e h

theorem bind {f : α → Except ε β} (h : Yields P Q x) (hf : ∀ a, Q a → Yields P R (f a)) : Yields P R (x >>= f) := by
  cases x with
  | ok a => exact hf a h
  | error e => exact h

theorem map {f : α → β} (h : Yields P Q x) (hf : ∀ a, Q a → R (f a)) : Yields P R (f <$> x) := by
  cases x with
  | ok a => exact hf a h
  | error e => exact h

theorem mapError {P : ε' → Prop} {f : ε → ε'} (h : Yields (fun e => P (f e)) Q x) : Yields P Q (x.mapError f) := by
  cases x with
  | ok a => exact h
  | error e => exact h

/-- A choice is described by its two sides. -/
theorem ite {c : Prop} [Decidable c] {y : Except ε α} (hx : c → Yields P Q x) (hy : ¬ c → Yields P Q y) :
    Yields P Q (if c then x else y) := by
  split
  · next h => exact hx h
  · next h => exact hy h

/-- What a step keeps, a run of steps keeps. -/
theorem foldlM {f : α → β → Except ε α} {bs : List β} {a : α} (ha : Q a)
    (hf : ∀ a b, b ∈ bs → Q a → Yields P Q (f a b)) : Yields P Q (bs.foldlM f a) := by
  induction bs generalizing a with
  | nil => exact ha
  | cons b bs ih =>
    rw [List.foldlM_cons]
    refine (hf a b List.mem_cons_self ha).bind fun a' ha' => ?_
    exact ih ha' fun a b hb => hf a b (List.mem_cons_of_mem _ hb)

theorem mapM {f : β → Except ε α} {bs : List β} (hf : ∀ b ∈ bs, Yields P Q (f b)) :
    Yields P (fun as => ∀ a ∈ as, Q a) (bs.mapM f) := by
  induction bs with
  | nil => exact fun a ha => absurd ha List.not_mem_nil
  | cons b bs ih =>
    rw [List.mapM_cons]
    refine (hf b List.mem_cons_self).bind fun a ha => ?_
    refine (ih fun b hb => hf b (List.mem_cons_of_mem _ hb)).bind fun as has => ?_
    exact List.forall_mem_cons.2 ⟨ha, has⟩

/-- There are as many values as steps. -/
theorem length_mapM {f : β → Except ε α} {bs : List β} (hf : ∀ b ∈ bs, Yields P Q (f b)) :
    Yields P (fun as => as.length = bs.length) (bs.mapM f) := by
  induction bs with
  | nil => exact rfl
  | cons b bs ih =>
    rw [List.mapM_cons]
    refine (hf b List.mem_cons_self).bind fun a _ => ?_
    refine (ih fun b hb => hf b (List.mem_cons_of_mem _ hb)).bind fun as has => ?_
    exact congrArg (· + 1) has

end Yields

/-- A sequence of steps fails as its first step does that fails. -/
theorem mapM_eq_error_iff {f : β → Except ε α} {bs : List β} {e : ε} :
    bs.mapM f = .error e ↔
      ∃ before b after, bs = before ++ b :: after ∧ (∀ x ∈ before, ∃ a, f x = .ok a) ∧ f b = .error e := by
  induction bs with
  | nil =>
    constructor
    · intro h
      cases h
    · rintro ⟨before, b, after, hsplit, -⟩
      simp at hsplit
  | cons b bs ih =>
    rw [List.mapM_cons]
    cases hb : f b with
    | error e' =>
      constructor
      · intro h
        cases h
        exact ⟨[], b, bs, rfl, by simp, hb⟩
      · rintro ⟨before, c, after, hsplit, hbefore, hc⟩
        cases before with
        | nil =>
          cases hsplit
          cases hb.symm.trans hc
          rfl
        | cons x before =>
          cases hsplit
          obtain ⟨a, ha⟩ := hbefore b List.mem_cons_self
          cases hb.symm.trans ha
    | ok a =>
      have hrest : (Except.ok a >>= fun a => bs.mapM f >>= fun as => pure (a :: as)) = .error e ↔ bs.mapM f = .error e := by
        cases hrest : bs.mapM f <;> simp [bind, Except.bind, pure, Except.pure]
      rw [hrest, ih]
      constructor
      · rintro ⟨before, c, after, rfl, hbefore, hc⟩
        exact ⟨b :: before, c, after, rfl, List.forall_mem_cons.2 ⟨⟨a, hb⟩, hbefore⟩, hc⟩
      · rintro ⟨before, c, after, hsplit, hbefore, hc⟩
        cases before with
        | nil =>
          cases hsplit
          cases hb.symm.trans hc
        | cons x before =>
          cases hsplit
          exact ⟨before, c, after, rfl, (List.forall_mem_cons.1 hbefore).2, hc⟩

theorem FailsOnly.ok (a : α) : FailsOnly P (.ok a : Except ε α) := trivial

theorem FailsOnly.bind {f : α → Except ε β} (h : FailsOnly P x) (hf : ∀ a, FailsOnly P (f a)) :
    FailsOnly P (x >>= f) := Yields.bind h fun a _ => hf a

end TestDiscovery
