-- SUMMARY: A report of entities or of assertion calls is in ASCII and tells the whole list that it reports.
import TestDiscovery.Proofs.Report.Json
import TestDiscovery.Proofs.Scan.Session
import TestDiscovery.Report.Entity

/-!
# What reports tell

A report is known by its text: two lists that are reported alike are the same, whatever characters the names and paths
hold and whatever numbers the ranges are made of. This is so for entities of the six kinds, and it would be so for any
other words in the place of the kinds.
-/

namespace TestDiscovery.Report

variable {level : Nat}

/-! ## Positions and ranges -/

def positionFields : List (String × (Position → List Char)) :=
  [("line", fun p => number p.line), ("column", fun p => number p.column)]

theorem position_prefixFree (level : Nat) : PrefixFree (position level) := by
  intro p q r s h
  have hfields : ∀ f ∈ positionFields, TellsMembers f.2 := by simp [positionFields, number_tellsMembers]
  obtain ⟨hsame, hends⟩ := objectOf_append_inj (a := p) (b := q) hfields h
  simp only [positionFields, List.forall_mem_cons] at hsame
  obtain ⟨hline, hcolumn, -⟩ := hsame
  refine ⟨?_, hends⟩
  rw [Position.mk.injEq]
  exact ⟨number_injective hline, number_injective hcolumn⟩

theorem isAscii_position (level : Nat) (p : Position) : IsAscii (position level p) :=
  isAscii_object (by simp [isAscii_member, isAscii_number])

def rangeFields (level : Nat) : List (String × (Range → List Char)) :=
  [("start", fun x => position (level + 1) x.start), ("end", fun x => position (level + 1) x.stop)]

theorem range_prefixFree (level : Nat) : PrefixFree (range level) := by
  intro x y r s h
  have hposition := position_prefixFree (level + 1)
  have hfields : ∀ f ∈ rangeFields level, TellsMembers f.2 := by simp [rangeFields, hposition.tellsMembers]
  obtain ⟨hsame, hends⟩ := objectOf_append_inj (a := x) (b := y) hfields h
  simp only [rangeFields, List.forall_mem_cons] at hsame
  obtain ⟨hstart, hstop, -⟩ := hsame
  refine ⟨?_, hends⟩
  rw [Range.mk.injEq]
  exact ⟨hposition.injective hstart, hposition.injective hstop⟩

theorem isAscii_range (level : Nat) (x : Range) : IsAscii (range level x) :=
  isAscii_object (by simp [isAscii_member, isAscii_position])

/-! ## Entities -/

/-- An entity as reports show it: any text may be the word for its kind. -/
structure Entry where
  kind : String
  name : String
  range : Range
  parent : String
  path : String
deriving DecidableEq, Repr

def entryFields (level : Nat) : List (String × (Entry → List Char)) :=
  [("kind", fun x => string x.kind), ("name", fun x => string x.name), ("range", fun x => range (level + 1) x.range),
    ("parent", fun x => string x.parent), ("path", fun x => string x.path)]

/-- An entry at a level of nesting. -/
def entry (level : Nat) (x : Entry) : List Char := objectOf level (entryFields level) x

/-- The report of entries. -/
def entries (xs : List Entry) : String := String.ofList (array 0 (xs.map (entry 1)))

theorem entry_prefixFree (level : Nat) : PrefixFree (entry level) := by
  intro x y r s h
  have hrange := range_prefixFree (level + 1)
  have hfields : ∀ f ∈ entryFields level, TellsMembers f.2 := by
    simp [entryFields, string_prefixFree.tellsMembers, hrange.tellsMembers]
  obtain ⟨hsame, hends⟩ := objectOf_append_inj (a := x) (b := y) hfields h
  simp only [entryFields, List.forall_mem_cons] at hsame
  obtain ⟨hkind, hname, hplace, hparent, hpath, -⟩ := hsame
  refine ⟨?_, hends⟩
  rw [Entry.mk.injEq]
  exact ⟨string_prefixFree.injective hkind, string_prefixFree.injective hname, hrange.injective hplace,
    string_prefixFree.injective hparent, string_prefixFree.injective hpath⟩

theorem isAscii_entry (level : Nat) (x : Entry) : IsAscii (entry level x) :=
  isAscii_object (by simp [entryFields, isAscii_member, isAscii_string, isAscii_range])

/-- An entity with the word for its kind. -/
def entryOf (e : Entity) : Entry := ⟨e.kind.label, e.name, e.range, e.parent, e.path⟩

theorem entryOf_injective : Function.Injective entryOf := by
  intro e e' h
  simp only [entryOf, Entry.mk.injEq] at h
  obtain ⟨hkind, hname, hrange, hparent, hpath⟩ := h
  rw [Entity.mk.injEq]
  exact ⟨Kind.label_injective hkind, hname, hrange, hparent, hpath⟩

/-- Entities are reported as entries. -/
theorem entities_eq_entries (es : List Entity) : entities es = entries (es.map entryOf) := by
  unfold entities entries
  rw [List.map_map]
  rfl

/-! ## Assertion calls -/

def callFields (level : Nat) : List (String × (AssertCall → List Char)) :=
  [("range", fun c => range (level + 1) c.range), ("text", fun c => string c.text)]

theorem assertCall_prefixFree (level : Nat) : PrefixFree (assertCall level) := by
  intro c d r s h
  have hrange := range_prefixFree (level + 1)
  have hfields : ∀ f ∈ callFields level, TellsMembers f.2 := by
    simp [callFields, string_prefixFree.tellsMembers, hrange.tellsMembers]
  obtain ⟨hsame, hends⟩ := objectOf_append_inj (a := c) (b := d) hfields h
  simp only [callFields, List.forall_mem_cons] at hsame
  obtain ⟨hplace, htext, -⟩ := hsame
  refine ⟨?_, hends⟩
  rw [AssertCall.mk.injEq]
  exact ⟨hrange.injective hplace, string_prefixFree.injective htext⟩

theorem isAscii_assertCall (level : Nat) (c : AssertCall) : IsAscii (assertCall level c) :=
  isAscii_object (by simp [isAscii_member, isAscii_string, isAscii_range])

/-! ## Reports -/

variable {α : Type} {write : α → List Char}

/-- Lists of values are reported alike only if they are the same. -/
theorem PrefixFree.report_eq_iff (h : PrefixFree write) (xs ys : List α) :
    String.ofList (array 0 (xs.map write)) = String.ofList (array 0 (ys.map write)) ↔ xs = ys := by
  rw [String.ofList_inj]
  exact (array_prefixFree h).injective.eq_iff

theorem isAscii_report (h : ∀ a, IsAscii (write a)) (xs : List α) :
    IsAscii (String.ofList (array 0 (xs.map write))).toList := by
  rw [String.toList_ofList]
  refine isAscii_array fun text htext => ?_
  obtain ⟨a, -, rfl⟩ := List.mem_map.1 htext
  exact h a

/-- The report of entities is in ASCII and tells them, one by one and in order. It would do so if the words for their
kinds were any texts. The report of assertion calls is in ASCII and tells the calls. -/
theorem reports_tell_lists :
    (∀ xs ys, entries xs = entries ys ↔ xs = ys) ∧
    (∀ xs, IsAscii (entries xs).toList) ∧
    (∀ es, entities es = entries (es.map entryOf)) ∧
    (∀ es es', entities es = entities es' ↔ es = es') ∧
    (∀ es, IsAscii (entities es).toList) ∧
    (∀ cs cs', assertCalls cs = assertCalls cs' ↔ cs = cs') ∧
    ∀ cs, IsAscii (assertCalls cs).toList := by
  have hentries := (entry_prefixFree 1).report_eq_iff
  have hascii := isAscii_report (isAscii_entry 1)
  refine ⟨hentries, hascii, entities_eq_entries, ?_, ?_, ?_, ?_⟩
  · intro es es'
    rw [entities_eq_entries, entities_eq_entries]
    exact (hentries _ _).trans entryOf_injective.list_map.eq_iff
  · intro es
    rw [entities_eq_entries]
    exact hascii _
  · exact (assertCall_prefixFree 1).report_eq_iff
  · exact isAscii_report (isAscii_assertCall 1)

/-- A name with a quote and a character that is written as a surrogate pair. -/
example : string "a\"😀" = "\"a\\\"\\ud83d\\ude00\"".toList := by decide

end TestDiscovery.Report
