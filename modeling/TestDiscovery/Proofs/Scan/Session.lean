-- SUMMARY: A session collects, step by step, what each step would put into a fresh collector.
import TestDiscovery.Proofs.Scan.Ranges
import TestDiscovery.Scan.Session

/-!
# What sessions collect

The steps of a session share a collector and options, and nothing else: a step reads the path and the options that the
steps before it have set, and appends to the collector. So a session collects, one after the other, what each step alone
would put into a fresh collector. What was collected stays where it is, and belongs to one of six kinds, two of which no
scan ever adds.
-/

namespace TestDiscovery

/-! ## Kinds -/

namespace Kind

/-- A kind is known by its word. -/
theorem label_injective : Function.Injective label := by
  intro k k' h
  cases k <;> cases k' <;> simp_all [label]

end Kind

namespace Collector

/-- The entities with the word of a kind are those of this kind. -/
theorem labelled_label (c : Collector) (k : Kind) : c.labelled k.label = c.entities.filter fun e => e.kind = k := by
  simp [labelled, Kind.label_injective.eq_iff]

/-- Each kind has a part of the entities, in their order. -/
theorem labelled_sublist (c : Collector) (label : String) : (c.labelled label).Sublist c.entities := List.filter_sublist

theorem mem_labelled_iff {c : Collector} {k : Kind} {e : Entity} :
    e ∈ c.labelled k.label ↔ e ∈ c.entities ∧ e.kind = k := by
  simp [labelled_label]

/-- Every entity has one of the kinds, and no more than one. -/
theorem length_eq_labelled (c : Collector) :
    c.entities.length = (c.labelled "suite").length + (c.labelled "class").length + (c.labelled "program").length +
      (c.labelled "method").length + (c.labelled "procedure").length + (c.labelled "assert").length := by
  simp only [labelled]
  induction c.entities with
  | nil => rfl
  | cons e es ih =>
    rw [List.length_cons, ih]
    cases hkind : e.kind <;> simp [hkind, Kind.label] <;> omega

/-- Findings of other kinds leave the entities of a kind as they are. -/
theorem labelled_add {c : Collector} {k : Kind} {findings : List Finding} (h : ∀ f ∈ findings, f.kind ≠ k) :
    (c.add findings).labelled k.label = c.labelled k.label := by
  simp only [labelled_label, entities_add, List.filter_append, List.append_right_eq_self, List.filter_eq_nil_iff]
  intro e he
  obtain ⟨f, hf, rfl⟩ := List.mem_map.1 he
  simp [h f hf]

end Collector

/-- A scan finds no program as a whole and no assertion. -/
theorem kind_of_mem_scan {o : Options} {path text : String} {f : Finding} (h : f ∈ (scan o path text).findings) :
    f.kind ≠ .program ∧ f.kind ≠ .assertion := by
  by_cases hfile : f = Scan.fileSuite path
  · simp [hfile, Scan.fileSuite, Finding.kind]
  · obtain ⟨i, line, -, -, -, hplaced⟩ := Scan.placedIn_of_mem_scan h hfile
    cases f with
    | program r name => cases hplaced
    | assertion r name => cases hplaced
    | _ => simp [Finding.kind]

namespace Session

/-! ## What is in force -/

/-- The path that the collector has after some steps: the one that was set last. -/
def pathAfter (path : String) : List Step → String
  | [] => path
  | .setPath new :: rest => pathAfter new rest
  | _ :: rest => pathAfter path rest

/-- The options that are in force after some steps: those that were set last, with the exclusions since then. -/
def optionsAfter (o : Options) : List Step → Options
  | [] => o
  | .setOptions new :: rest => optionsAfter new rest
  | .exclude name :: rest => optionsAfter (o.exclude name) rest
  | _ :: rest => optionsAfter o rest

/-- What a step alone puts into a fresh collector for a path, under the given options. -/
def alone (path : String) (o : Options) (a : Step) : List Entity :=
  (step { collector := { path }, options := o } a).collector.entities

/-! ## Steps and runs -/

variable (s : Session) (a : Step) (steps more : List Step)

theorem run_cons : s.run (a :: steps) = (s.step a).run steps := rfl

theorem run_append : s.run (steps ++ more) = (s.run steps).run more := List.foldl_append

theorem pathAfter_cons : pathAfter s.collector.path (a :: steps) = pathAfter (s.step a).collector.path steps := by
  cases a <;> rfl

theorem optionsAfter_cons : optionsAfter s.options (a :: steps) = optionsAfter (s.step a).options steps := by
  cases a <;> rfl

/-- A step appends what it gives alone, whatever has been collected before. -/
theorem entities_step : (s.step a).collector.entities = s.collector.entities ++ alone s.collector.path s.options a := by
  cases a <;> simp [step, alone, Step.findings]

/-- A run appends what each step gives alone, with the path and the options that are in force when its turn comes. -/
theorem entities_run : (s.run steps).collector.entities = s.collector.entities ++ steps.zipIdx.flatMap fun x =>
    alone (pathAfter s.collector.path (steps.take x.2)) (optionsAfter s.options (steps.take x.2)) x.1 := by
  induction steps generalizing s with
  | nil => simp [run]
  | cons a steps ih =>
    rw [run_cons, ih, entities_step, List.zipIdx_cons', List.flatMap_cons, List.flatMap_map, List.append_assoc]
    simp [pathAfter_cons, optionsAfter_cons, pathAfter, optionsAfter]

/-- What a run has collected stays at the front, in its order. -/
theorem entities_run_prefix : (s.run steps).collector.entities <+: (s.run (steps ++ more)).collector.entities := by
  rw [run_append, entities_run (s.run steps)]
  apply List.prefix_append

/-- A scan leaves the programs and the assertions of a collector as they are. -/
theorem labelled_step_scan {k : Kind} (hk : k = .program ∨ k = .assertion) (path text : String) :
    (s.step (.scan path text)).collector.labelled k.label = s.collector.labelled k.label := by
  apply Collector.labelled_add
  intro f hf
  obtain ⟨hprogram, hassertion⟩ := kind_of_mem_scan hf
  rcases hk with rfl | rfl
  · exact hprogram
  · exact hassertion

theorem path_run : (s.run steps).collector.path = pathAfter s.collector.path steps := by
  induction steps generalizing s with
  | nil => rfl
  | cons a steps ih => rw [run_cons, ih, pathAfter_cons]

/-- What is reported directly is appended, with the path that was set last. -/
theorem entities_run_report (finding : Finding) : (s.run (steps ++ [.report finding])).collector.entities =
    (s.run steps).collector.entities ++ [finding.toEntity (pathAfter s.collector.path steps)] := by
  rw [run_append, ← path_run]
  exact Collector.entities_add _ [finding]

/-- A session collects, step by step, what each step would put into a fresh collector with the path and the options that
are then in force. What has been collected is never changed. The entities are parted by the six kinds, in their order,
and no scan adds a program or an assertion. A direct report adds one entity of its kind, with the range, the name and the
parent that are reported, and the path that was set last; an assertion has a parent and no name. -/
theorem run_collects_alone :
    ((s.run steps).collector.entities = s.collector.entities ++ steps.zipIdx.flatMap fun x =>
      alone (pathAfter s.collector.path (steps.take x.2)) (optionsAfter s.options (steps.take x.2)) x.1) ∧
    (∀ more, (s.run steps).collector.entities <+: (s.run (steps ++ more)).collector.entities) ∧
    (∀ k : Kind, ((s.run steps).collector.labelled k.label).Sublist (s.run steps).collector.entities ∧
      ∀ e, e ∈ (s.run steps).collector.labelled k.label ↔ e ∈ (s.run steps).collector.entities ∧ e.kind = k) ∧
    (s.run steps).collector.entities.length =
      ((s.run steps).collector.labelled "suite").length + ((s.run steps).collector.labelled "class").length +
      ((s.run steps).collector.labelled "program").length + ((s.run steps).collector.labelled "method").length +
      ((s.run steps).collector.labelled "procedure").length + ((s.run steps).collector.labelled "assert").length ∧
    (∀ path text,
      (s.run (steps ++ [.scan path text])).collector.labelled "program" = (s.run steps).collector.labelled "program" ∧
      (s.run (steps ++ [.scan path text])).collector.labelled "assert" = (s.run steps).collector.labelled "assert") ∧
    ∀ range name parent,
      let path := pathAfter s.collector.path steps
      let Adds (finding : Finding) (e : Entity) : Prop :=
        (s.run (steps ++ [.report finding])).collector.entities = (s.run steps).collector.entities ++ [e]
      Adds (.suite range name) { kind := .suite, name, range, path } ∧
      Adds (.testClass range name) { kind := .testClass, name, range, path } ∧
      Adds (.program range name) { kind := .program, name, range, path } ∧
      Adds (.method range parent name) { kind := .method, name, range, parent, path } ∧
      Adds (.procedure range parent name) { kind := .procedure, name, range, parent, path } ∧
      Adds (.assertion range parent) { kind := .assertion, name := "", range, parent, path } := by
  refine ⟨entities_run s steps, entities_run_prefix s steps, ?_, Collector.length_eq_labelled _, ?_, ?_⟩
  · intro k
    exact ⟨Collector.labelled_sublist _ _, fun e => Collector.mem_labelled_iff⟩
  · intro path text
    simp only [run_append]
    exact ⟨labelled_step_scan _ (.inl rfl) path text, labelled_step_scan _ (.inr rfl) path text⟩
  · intro range name parent
    have hadds := entities_run_report s steps
    exact ⟨hadds _, hadds _, hadds _, hadds _, hadds _, hadds _⟩

/-- Two scans of the same text, before and after the path has changed, differ in the path only. -/
example :
    (run { collector := { path := "a" } }
      [.scan "x.p" "@Test.\nprocedure b:", .setPath "c", .scan "x.p" "@Test.\nprocedure b:"]).collector.entities =
    [{ kind := .procedure, name := "b", range := .onLine 1 10 1, path := "a" },
      { kind := .procedure, name := "b", range := .onLine 1 10 1, path := "c" }] := by
  decide

end Session

end TestDiscovery
