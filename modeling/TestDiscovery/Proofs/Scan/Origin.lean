-- SUMMARY: Where findings come from: each one stands for the text as a whole, or for something on one of its lines.
import TestDiscovery.Proofs.Scan.PlainClass
import TestDiscovery.Proofs.Scan.PlainProgram
import TestDiscovery.Proofs.Scan.SuiteClass

/-!
# Origins of findings

A suite is found as a whole, by its header, and by the members in its annotations. In other texts classes are found by
their headers, and methods and procedures by their declarations. So what holds of all findings is proved by going through
the things that a line can be read for, and not by following the scan.
-/

namespace TestDiscovery.Scan

/-- What a finding in a text stands for, and on which line. -/
inductive Origin (o : Options) (path : String) (suite : Bool) (lines : List (List Char)) : Finding → Prop
  | file (hsuite : suite = true) : Origin o path suite lines (fileSuite path)
  | anchor {n : Nat} {line name : List Char} (hsuite : suite = true) (hbelow : 1 ≤ n) (hline : lines[n]? = some line)
      (hheader : suiteHeader? line = some name) :
      Origin o path suite lines (.suite (headerRange o n line name) (String.ofList name))
  | member {n : Nat} {line : List Char} {m : SuiteMember} (hsuite : suite = true) (hline : lines[n]? = some line)
      (hmember : m ∈ lineMembers o n line) : Origin o path suite lines (memberFinding m)
  | ofClass {n : Nat} {line name : List Char} (hsuite : suite = false) (hline : lines[n]? = some line)
      (hheader : Grammar.className? line = some name) :
      Origin o path suite lines (.testClass (headerRange o n line name) (String.ofList name))
  | method {n : Nat} {line className : List Char} {f : Finding} (hsuite : suite = false) (hline : lines[n]? = some line)
      (hdeclared : methodOn className n line = some f) : Origin o path suite lines f
  | procedure {n : Nat} {line : List Char} {f : Finding} (hsuite : suite = false) (hline : lines[n]? = some line)
      (hdeclared : procedureOn o n line = some f) : Origin o path suite lines f

variable {o : Options} {path text : String} {lines : List (List Char)} {f : Finding}

theorem origin_of_mem_classFrom (h : f ∈ classFrom o 0 lines) : Origin o path false lines f := by
  rcases exists_firstClass_or_noClass lines with ⟨i, line, name, hfirst⟩ | hnone
  · rw [classFrom_of_firstClass hfirst] at h
    rcases List.mem_cons.1 h with rfl | h
    · exact .ofClass rfl hfirst.here hfirst.header
    · obtain ⟨k, -, hk⟩ := List.mem_filterMap.1 h
      obtain ⟨-, line, hline, hdeclared⟩ := belowMarker_eq_some hk
      exact .method rfl hline hdeclared
  · rw [classFrom_of_noClass hnone] at h
    cases h

theorem origin_of_mem_procedures (h : f ∈ procedures o lines) : Origin o path false lines f := by
  rw [procedures_eq_filterMap] at h
  obtain ⟨k, -, hk⟩ := List.mem_filterMap.1 h
  obtain ⟨-, line, hline, hdeclared⟩ := belowMarker_eq_some hk
  exact .procedure rfl hline hdeclared

theorem origin_of_mem_suiteBody {text : List Char} (h : f ∈ (suiteBody o text).findings) :
    Origin o path true (Text.lines text) f := by
  rcases exists_firstHeader_or_noHeader (Text.lines text) with ⟨a, line, name, hfirst⟩ | hnone
  · rw [suiteBody_of_firstHeader hfirst] at h
    rcases List.mem_cons.1 h with rfl | h
    · exact .anchor rfl hfirst.below hfirst.here hfirst.header
    · obtain ⟨m, hm, rfl⟩ := List.mem_map.1 h
      obtain ⟨⟨line, k⟩, hnumbered, hmember⟩ := List.mem_flatMap.1 hm
      have hline := List.mem_zipIdx_iff_getElem?.1 (List.mem_of_mem_take (List.mem_of_mem_tail hnumbered))
      exact .member rfl hline hmember
  · rw [suiteBody_of_noHeader hnone] at h
    cases h

/-- Every finding of a scan has its origin in the text. -/
theorem origin_of_mem_scan (h : f ∈ (scan o path text).findings) :
    Origin o path (isSuite text) (Text.lines text.toList) f := by
  unfold scan at h
  split at h
  · cases h
  · next hsuite =>
    rw [hsuite]
    rcases List.mem_cons.1 h with rfl | h
    · exact .file rfl
    · exact origin_of_mem_suiteBody h
  · next hsuite =>
    rw [hsuite]
    unfold plainClass at h
    split at h
    · exact origin_of_mem_classFrom h
    · cases h
  · cases h
  · next hsuite =>
    rw [hsuite]
    rw [plainProgram_eq_procedures] at h
    exact origin_of_mem_procedures h

end TestDiscovery.Scan
