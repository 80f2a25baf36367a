-- SUMMARY: The command lines that ask for a command, as they may be written.
import TestDiscovery.Command.Request

/-!
# Command lines

A command line that asks for a command is any number of `--verbose`, perhaps two hyphens, the name of the command, and
its arguments, perhaps with two hyphens before one of them. Reading the arguments accepts these and no others.
-/

namespace TestDiscovery

namespace Command

def name : Command → String
  | discover _ => "discover"
  | scan _ => "scan"
  | asserts _ => "asserts"

def arguments : Command → List String
  | discover root => root.toList
  | scan file => [file]
  | asserts file => [file]

theorem isOption_name (c : Command) : Request.isOption c.name = false := by
  have hnames : ∀ n ∈ ["discover", "scan", "asserts"], Request.isOption n = false := by decide
  exact hnames c.name (by cases c <;> simp [name])

end Command

namespace Request

/-! ## Arguments of a command -/

/-- How arguments are written that are no options: after two hyphens anything is an argument. -/
inductive Positional : List String → List String → Prop where
  | nil : Positional [] []
  | ended (args : List String) : Positional ("--" :: args) args
  | cons {arg : String} {written args : List String} (harg : isOption arg = false) (h : Positional written args) :
      Positional (arg :: written) (arg :: args)

variable {arg : String} {written args rest : List String} {c : Command} {verbose : Bool} {f f' : Flags}

theorem positional?_eq_some_iff : positional? written = some args ↔ Positional written args := by
  constructor
  · intro h
    induction written generalizing args with
    | nil =>
      cases h
      exact .nil
    | cons arg written ih =>
      rw [positional?] at h
      split at h
      · next hended =>
        obtain rfl := hended
        cases h
        exact .ended written
      · split at h
        · cases h
        · next hoption =>
          obtain ⟨more, hmore, rfl⟩ := Option.map_eq_some_iff.1 h
          exact .cons (Bool.eq_false_iff.2 hoption) (ih hmore)
  · intro h
    induction h with
    | nil => rfl
    | ended args => rw [positional?, if_pos rfl]
    | @cons arg written args harg _ ih =>
      have hended : arg ≠ "--" := by
        rintro rfl
        cases harg
      rw [positional?, if_neg hended, harg, if_neg Bool.false_ne_true, ih]
      rfl

theorem command?_eq_some_iff {name : String} :
    command? name written = some c ↔ name = c.name ∧ Positional written c.arguments := by
  rw [← positional?_eq_some_iff]
  constructor
  · intro h
    unfold command? at h
    split at h
    · next hargs =>
      cases h
      exact ⟨rfl, hargs⟩
    · next root hargs =>
      cases h
      exact ⟨rfl, hargs⟩
    · next file hargs =>
      cases h
      exact ⟨rfl, hargs⟩
    · next file hargs =>
      cases h
      exact ⟨rfl, hargs⟩
    · cases h
  · rintro ⟨rfl, h⟩
    unfold command?
    rw [h]
    cases c with
    | discover root => cases root <;> rfl
    | scan file => rfl
    | asserts file => rfl

/-! ## Options of the program -/

/-- How a request for a command is written, with `--verbose` or without. -/
inductive Written : Bool → Command → List String → Prop where
  | command {c : Command} {written : List String} (h : Positional written c.arguments) :
      Written false c (c.name :: written)
  | ended {c : Command} {written : List String} (h : Positional written c.arguments) :
      Written false c ("--" :: c.name :: written)
  | verbose {quiet : Bool} {c : Command} {args : List String} (h : Written quiet c args) :
      Written true c ("--verbose" :: args)

/-- A request for the version stays one. -/
theorem version_of_flags? (hf : f.version = true) (h : flags? f args = some (f', rest)) : f'.version = true := by
  induction args generalizing f with
  | nil =>
    cases h
    exact hf
  | cons arg args ih =>
    rw [flags?] at h
    split at h
    · cases h
      exact hf
    · split at h
      · exact ih (f := { f with verbose := true }) hf h
      · split at h
        · exact ih (f := { f with version := true }) rfl h
        · split at h
          · cases h
          · cases h
            exact hf

theorem written_of_flags? (h : flags? f args = some (f', c.name :: rest)) (hversion : f'.version = false)
    (hargs : Positional rest c.arguments) : ∃ more, Written more c args ∧ f'.verbose = (f.verbose || more) := by
  induction args generalizing f with
  | nil => cases h
  | cons arg args ih =>
    rw [flags?] at h
    split at h
    · next hended =>
      obtain rfl := hended
      cases h
      exact ⟨false, .ended hargs, (Bool.or_false _).symm⟩
    · split at h
      · next hverbose =>
        obtain rfl := hverbose
        obtain ⟨more, hwritten, hmore⟩ := ih (f := { f with verbose := true }) h
        exact ⟨true, .verbose hwritten, by rw [hmore, Bool.true_or, Bool.or_true]⟩
      · split at h
        · rw [version_of_flags? (f := { f with version := true }) rfl h] at hversion
          cases hversion
        · split at h
          · cases h
          · cases h
            exact ⟨false, .command hargs, (Bool.or_false _).symm⟩

theorem flags?_of_isOption_eq_false (h : isOption arg = false) : flags? f (arg :: rest) = some (f, arg :: rest) := by
  have hne {option : String} (hoption : isOption option = true) : arg ≠ option := by
    rintro rfl
    rw [hoption] at h
    cases h
  have hversion : ¬ ((arg = "--version" || arg = "-v") = true) := by
    simp [hne (show isOption "--version" = true by decide), hne (show isOption "-v" = true by decide)]
  rw [flags?, if_neg (hne (by decide)), if_neg (hne (by decide)), if_neg hversion, h, if_neg Bool.false_ne_true]

theorem flags?_of_written {more : Bool} (h : Written more c args) (f : Flags) :
    ∃ rest, flags? f args = some ({ f with verbose := f.verbose || more }, c.name :: rest) ∧
      Positional rest c.arguments := by
  induction h generalizing f with
  | @command c written hargs =>
    exact ⟨written, by rw [flags?_of_isOption_eq_false c.isOption_name, Bool.or_false], hargs⟩
  | @ended c written hargs =>
    refine ⟨written, ?_, hargs⟩
    rw [flags?, if_pos rfl, Bool.or_false]
  | @verbose quiet c args _ ih =>
    obtain ⟨rest, hrest, hargs⟩ := ih { f with verbose := true }
    refine ⟨rest, ?_, hargs⟩
    rw [flags?, if_neg (by decide), if_pos rfl, hrest, Bool.true_or, Bool.or_true]

/-- A command line asks for a command exactly if it is written as such a request. -/
theorem ofArgs_eq_run_iff : ofArgs args = .run verbose c ↔ Written verbose c args := by
  constructor
  · intro h
    unfold ofArgs at h
    split at h
    · cases h
    · next f rest hflags =>
      split at h
      · cases h
      · next hversion =>
        split at h
        · split at h <;> cases h
        · next name written =>
          split at h
          · next found hcommand =>
            cases h
            obtain ⟨rfl, hargs⟩ := command?_eq_some_iff.1 hcommand
            obtain ⟨more, hwritten, hmore⟩ := written_of_flags? hflags (Bool.eq_false_iff.2 hversion) hargs
            rw [hmore]
            exact hwritten
          · cases h
  · intro h
    obtain ⟨rest, hflags, hargs⟩ := flags?_of_written h {}
    have hcommand : command? c.name rest = some c := command?_eq_some_iff.2 ⟨rfl, hargs⟩
    unfold ofArgs
    simp [hflags, hcommand]

end Request

end TestDiscovery
