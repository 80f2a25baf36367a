-- SUMMARY: Two scans side by side: findings in pairs, and a suite in two parts, its header and its members.
import Mathlib.Data.List.Forall2
import TestDiscovery.Proofs.Scan.PlainClass
import TestDiscovery.Proofs.Scan.PlainProgram
import TestDiscovery.Proofs.Scan.SuiteClass

/-!
# Scans side by side

Two scans are compared finding by finding. They are if the three kinds of texts are: what stands on the lines of a class
or a program is compared line by line, and of a suite there are two parts that have nothing to do with each other, the
first header and the members on the lines above it.
-/

namespace TestDiscovery

/-! ## What a finding reports -/

namespace Finding

/-- The name that a finding reports. An assertion has none. -/
def name : Finding → String
  | suite _ n | testClass _ n | program _ n | method _ _ n | procedure _ _ n => n
  | assertion .. => ""

/-- What a finding belongs to, empty if that is nothing. -/
def parent : Finding → String
  | method _ owner _ | procedure _ owner _ | assertion _ owner => owner
  | _ => ""

@[simp] theorem toEntity_name (path : String) (f : Finding) : (f.toEntity path).name = f.name := by cases f <;> rfl

@[simp] theorem toEntity_parent (path : String) (f : Finding) : (f.toEntity path).parent = f.parent := by
  cases f <;> rfl

end Finding

namespace Scan

/-! ## The parts of a suite -/

namespace SuiteBody

/-- The range and the name of the class of a suite, if there is one. -/
def anchor? : SuiteBody → Option (Range × String)
  | anchored range name _ => some (range, name)
  | headless _ => none

/-- The members of a suite, whether a class holds them or not. -/
def members : SuiteBody → List SuiteMember
  | anchored _ _ members | headless members => members

/-- A suite is found as its class with its members. -/
theorem findings_eq (b : SuiteBody) :
    b.findings = b.anchor?.toList.flatMap fun a => .suite a.1 a.2 :: b.members.map memberFinding := by
  cases b <;> simp [findings, anchor?, members]

end SuiteBody

/-- The numbered lines that are read for members: those above the first header. -/
def aboveHeader (numbered : List (List Char × Nat)) : List (List Char × Nat) :=
  numbered.takeWhile fun numberedLine => (suiteHeader? numberedLine.1).isNone

/-- The range and the name of the first header on numbered lines. -/
def anchorOf? (o : Options) (numbered : List (List Char × Nat)) : Option (Range × String) :=
  numbered.findSome? fun numberedLine =>
    (suiteHeader? numberedLine.1).map fun name =>
      (headerRange o numberedLine.2 numberedLine.1 name, String.ofList name)

variable {o : Options} {n : Nat} {lines : List (List Char)} {ms : List SuiteMember}

theorem members_suiteFrom : (suiteFrom o n ms lines).members = ms ++ linesMembers o (aboveHeader (lines.zipIdx n)) := by
  induction lines generalizing n ms with
  | nil => exact (List.append_nil ms).symm
  | cons line rest ih =>
    cases hheader : suiteHeader? line with
    | some name =>
      rw [suiteFrom_cons_of_header hheader]
      simp [SuiteBody.members, aboveHeader, linesMembers, hheader]
    | none =>
      rw [suiteFrom_cons_of_no_header hheader, ih]
      simp [aboveHeader, linesMembers, hheader]

theorem anchor?_suiteFrom : (suiteFrom o n ms lines).anchor? = anchorOf? o (lines.zipIdx n) := by
  induction lines generalizing n ms with
  | nil => rfl
  | cons line rest ih =>
    cases hheader : suiteHeader? line with
    | some name =>
      rw [suiteFrom_cons_of_header hheader]
      simp [SuiteBody.anchor?, anchorOf?, hheader]
    | none =>
      rw [suiteFrom_cons_of_no_header hheader, ih]
      simp [anchorOf?, hheader]

theorem members_suiteBody (o : Options) (text : List Char) :
    (suiteBody o text).members = linesMembers o (aboveHeader (Text.lines text).zipIdx.tail) := by
  rw [suiteBody, members_suiteFrom, List.nil_append, List.tail_zipIdx]

theorem anchor?_suiteBody (o : Options) (text : List Char) :
    (suiteBody o text).anchor? = anchorOf? o (Text.lines text).zipIdx.tail := by
  rw [suiteBody, anchor?_suiteFrom, List.tail_zipIdx]

/-! ## Findings in pairs -/

variable {R : Finding → Finding → Prop} {o' : Options} {path text text' : String}

/-- Two scans find the same up to a relation if they do in the text as what it is. -/
theorem forall₂_scan (hkind : SourceKind.ofPath? o' path = SourceKind.ofPath? o path)
    (hsuite : isSuite text' = isSuite text)
    (hbody : isSuite text = true → List.Forall₂ R (fileSuite path :: (suiteBody o text.toList).findings)
      (fileSuite path :: (suiteBody o' text'.toList).findings))
    (hclass : isSuite text = false → List.Forall₂ R (plainClass o text.toList) (plainClass o' text'.toList))
    (hprogram : isSuite text = false → List.Forall₂ R (plainProgram o text.toList) (plainProgram o' text'.toList)) :
    List.Forall₂ R (scan o path text).findings (scan o' path text').findings := by
  unfold scan
  rw [hkind, hsuite]
  cases hfits : isSuite text with
  | true =>
    cases SourceKind.ofPath? o path with
    | none => exact .nil
    | some kind =>
      cases kind with
      | classFile => exact hbody hfits
      | programFile => exact .nil
  | false =>
    cases SourceKind.ofPath? o path with
    | none => exact .nil
    | some kind =>
      cases kind with
      | classFile => exact hclass hfits
      | programFile => exact hprogram hfits

end Scan

end TestDiscovery
