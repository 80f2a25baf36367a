-- SUMMARY: A walk yields its files in the order of their paths, part by part.
import TestDiscovery.Proofs.Discovery.Coverage

/-!
# The order of a walk

Paths are ordered by their parts, and parts by their characters. This is not the order of their texts: `a/b` goes before
`a.b`. A directory lists its names in order, and all that is found below an entry stands before all that is found at and
below the later ones, since two paths that part at some name compare as these names do, whatever follows. So the files of
a walk are in order across all levels, and none is yielded twice.
-/

namespace TestDiscovery

/-! ## Paths in order -/

namespace Path

/-- The anchor of a path, if it has one, and its names. -/
def parts (p : Path) : List String := if p.anchor = .here then p.names else p.anchor.text :: p.names

instance : LT Path := ⟨fun p q => p.parts < q.parts⟩

instance (p q : Path) : Decidable (p < q) := inferInstanceAs (Decidable (p.parts < q.parts))

theorem lt_irrefl (p : Path) : ¬ p < p := List.lt_irrefl p.parts

/-- Under one anchor, paths are ordered by their names. -/
theorem lt_of_names_lt {p q : Path} (hanchor : p.anchor = q.anchor) (h : p.names < q.names) : p < q := by
  change p.parts < q.parts
  unfold parts
  rw [hanchor]
  split
  · exact h
  · exact List.cons_lt_cons_iff.2 (.inr ⟨rfl, h⟩)

/-- A path leads to another one, or on to it: both have the same anchor and the other one goes on where it ends. -/
structure LeadsTo (p q : Path) : Prop where
  anchor : p.anchor = q.anchor
  names : p.names <+: q.names

/-- Two paths with the same anchor go the same way, and where they part the first one has the lesser name. -/
structure Precedes (p q : Path) : Prop where
  anchor : p.anchor = q.anchor
  parting : ∃ common m n, m < n ∧ common ++ [m] <+: p.names ∧ common ++ [n] <+: q.names

variable {p p' q q' r : Path} {m n : String}

theorem LeadsTo.refl (p : Path) : LeadsTo p p := ⟨rfl, List.prefix_rfl⟩

theorem LeadsTo.trans (h : LeadsTo p q) (h' : LeadsTo q r) : LeadsTo p r :=
  ⟨h.anchor.trans h'.anchor, h.names.trans h'.names⟩

theorem LeadsTo.child (p : Path) (name : String) : LeadsTo p (p.child name) := ⟨rfl, List.prefix_append p.names [name]⟩

theorem Precedes.lt (h : Precedes p q) : p < q := by
  obtain ⟨hanchor, common, m, n, hless, ⟨rest, hp⟩, ⟨rest', hq⟩⟩ := h
  refine lt_of_names_lt hanchor ?_
  rw [← hp, ← hq, List.append_assoc, List.append_assoc]
  exact List.append_left_lt (List.cons_lt_cons_iff.2 (.inl hless))

/-- What follows after the paths have parted does not count. -/
theorem Precedes.mono (h : Precedes p q) (hp : LeadsTo p p') (hq : LeadsTo q q') : Precedes p' q' := by
  obtain ⟨hanchor, common, m, n, hless, hm, hn⟩ := h
  exact ⟨hp.anchor.symm.trans (hanchor.trans hq.anchor), common, m, n, hless, hm.trans hp.names, hn.trans hq.names⟩

theorem Precedes.child (h : m < n) (p : Path) : Precedes (p.child m) (p.child n) :=
  ⟨rfl, p.names, m, n, h, List.prefix_rfl, List.prefix_rfl⟩

end Path

/-- A directory lists its names in order, none of them twice. -/
theorem FileTree.pairwise_names (t : FileTree) (l : Location) : (t.names l).Pairwise (· < ·) := by
  have hle : (t.names l).Pairwise fun a b => decide (a ≤ b) = true := by
    unfold FileTree.names
    apply List.pairwise_mergeSort
    case trans => exact fun a b c hab hbc => by simpa using String.le_trans (by simpa using hab) (by simpa using hbc)
    case total => exact fun a b => by simpa using String.le_total a b
  refine hle.imp₂ ?_ FileTree.nodup_names
  intro a b hab hne
  have hab : a ≤ b := of_decide_eq_true hab
  by_contra hless
  exact hne (String.le_antisymm hab (String.not_lt.1 hless))

namespace Walk

variable {t : FileTree} {o : Options} {a passed : List Item} {e e' : Entered}

/-! ## Runs in order -/

/-- Entries come in the order of their paths, and so does all that is found below them. -/
def InOrder (a : List Item) : Prop := a.Pairwise fun i j => i.full.Precedes j.full

theorem leadsTo_of_mem_items {path : Path} {dir : Location} {i : Item} (h : i ∈ items t path dir) :
    path.LeadsTo i.full := by
  rw [Item.full, (mem_items_iff.1 h).1]
  exact .child path i.name

theorem inOrder_items (t : FileTree) (path : Path) (dir : Location) : InOrder (items t path dir) := by
  unfold InOrder items
  rw [List.pairwise_map]
  exact (t.pairwise_names dir).imp fun hless => .child hless path

namespace Runs

/-- What a run passes is an entry of its agenda or lies below one. -/
theorem exists_leadsTo (h : Runs t o a e passed e') : ∀ i ∈ passed, ∃ j ∈ a, j.full.LeadsTo i.full := by
  induction h with
  | done => exact fun _ hi => absurd hi List.not_mem_nil
  | @enter j rest passed e e' place target fresh below ih =>
    intro i hi
    obtain ⟨k, hk, hleads⟩ := ih i hi
    rcases List.mem_append.1 hk with hk | hk
    · exact ⟨j, List.mem_cons_self, (leadsTo_of_mem_items hk).trans hleads⟩
    · exact ⟨k, List.mem_cons_of_mem j hk, hleads⟩
  | @pass j rest passed e e' stale next ih =>
    intro i hi
    rcases List.mem_cons.1 hi with rfl | hi
    · exact ⟨i, List.mem_cons_self, .refl i.full⟩
    · obtain ⟨k, hk, hleads⟩ := ih i hi
      exact ⟨k, List.mem_cons_of_mem j hk, hleads⟩

/-- A run over an agenda in order passes its entries in order. -/
theorem inOrder (h : Runs t o a e passed e') (ha : InOrder a) : InOrder passed := by
  induction h with
  | done => exact ha
  | @enter i rest passed e e' place target fresh below ih =>
    obtain ⟨hfirst, hrest⟩ := List.pairwise_cons.1 ha
    refine ih (List.pairwise_append.2 ⟨inOrder_items t i.full place, hrest, ?_⟩)
    exact fun j hj k hk => (hfirst k hk).mono (leadsTo_of_mem_items hj) (.refl k.full)
  | @pass i rest passed e e' stale next ih =>
    obtain ⟨hfirst, hrest⟩ := List.pairwise_cons.1 ha
    refine List.pairwise_cons.2 ⟨?_, ih hrest⟩
    intro j hj
    obtain ⟨k, hk, hleads⟩ := next.exists_leadsTo j hj
    exact (hfirst k hk).mono (.refl i.full) hleads

end Runs

/-- The files that a walk of a directory finds are in the order of their paths. -/
theorem pairwise_found {path : Path} {dir : Location} (hdir : t.isDirAt dir = true) :
    (ofDirectory t o path dir).found.Pairwise fun r r' => ∀ f g, r = .ok f → r' = .ok g → f < g := by
  obtain ⟨passed, hruns, hfound⟩ := runs_ofDirectory o path hdir
  rw [hfound]
  refine (hruns.inOrder (inOrder_items t path dir)).filterMap _ ?_
  rintro i j hprecedes _ hsight _ hsight' f g rfl rfl
  obtain rfl := (Item.sight?_eq_ok_iff.1 hsight).1
  obtain rfl := (Item.sight?_eq_ok_iff.1 hsight').1
  exact hprecedes.lt

end Walk

/-! ## The files of a walk -/

namespace FileSystem

open Walk

/-- A root that cannot be walked yields nothing. What a walk yields, as the source files or before a fault, is in the
order of the paths across all levels, so that nothing is yielded twice. -/
theorem walk_yields_in_order (fs : FileSystem) (o : Options) (root : Path) :
    (∀ e, fs.walk o root = .error e → fs.sourceFiles o root = .error e) ∧
    ∀ w, fs.walk o root = .ok w →
      fs.sourceFiles o root = (unlessFault (yielded w.found).1 (yielded w.found).2).mapError .inaccessible ∧
      (yielded w.found).1.Pairwise (· < ·) ∧ (yielded w.found).1.Nodup := by
  constructor
  · intro e he
    unfold sourceFiles
    simp [he, bind, Except.bind]
  · intro w hw
    obtain ⟨top, hdirectory, rfl⟩ := directoryAt_of_walk hw
    have hsorted : (yielded (ofDirectory fs.tree o root top).found).1.Pairwise (· < ·) :=
      pairwise_yielded_of_found (pairwise_found (directoryAt_eq_ok_iff.1 hdirectory).2.2)
    refine ⟨sourceFiles_of_directoryAt o hdirectory, hsorted, hsorted.imp ?_⟩
    rintro f g hless rfl
    exact f.lt_irrefl hless

/-! ### A directory between files -/

/-- A root with a directory and a file whose name goes on from that of the directory, each with a source. -/
def directoryBetween : FileSystem where
  tree := {
    entries := [(["a"], .dir), (["a.p"], .file []), (["b.p", "a"], .file [])]
    distinct := by decide
    placed := by
      intro e he
      simp only [List.mem_cons, List.not_mem_nil, or_false] at he
      rcases he with rfl | rfl | rfl
      · exact ⟨"a", [], rfl, by decide, .inl rfl⟩
      · exact ⟨"a.p", [], rfl, by decide, .inl rfl⟩
      · exact ⟨"b.p", ["a"], rfl, by decide, .inr (by decide)⟩ }

/-- The file in the directory comes first, against the order of the texts. -/
theorem yielded_directoryBetween : yielded (ofDirectory directoryBetween.tree {} ⟨.root, []⟩ []).found =
    ([⟨.root, ["a", "b.p"]⟩, ⟨.root, ["a.p"]⟩], none) := by
  have hsorted : ["a", "a.p"].Pairwise fun a b => decide (a ≤ b) = true := by decide
  have hroot : directoryBetween.tree.names [] = ["a", "a.p"] := List.mergeSort_of_pairwise hsorted
  have hbelow : directoryBetween.tree.names ["a"] = ["b.p"] := by
    simp [FileTree.names, directoryBetween, FileTree.nameIn?]
  have hdir : Item.target? directoryBetween.tree {} ⟨⟨.root, []⟩, [], "a"⟩ = some ["a"] := rfl
  have hfile : within directoryBetween.tree {} (directoryBetween.tree.directories.length + 1) [(⟨.root, []⟩, [])]
      (Path.child ⟨.root, []⟩ "a") ["a"] =
        ⟨[.ok ⟨.root, ["a", "b.p"]⟩], [(⟨.root, ["a"]⟩, ["a"]), (⟨.root, []⟩, [])]⟩ := by
    rw [within, hbelow]
    rfl
  rw [ofDirectory, within, hroot, List.foldl_cons, visit_eq_of_target? hdir, hfile]
  rfl

theorem walk_yields_in_order_directoryBetween :
    (∃ w, directoryBetween.walk {} ⟨.root, []⟩ = .ok w ∧
      (yielded w.found).1 = [⟨.root, ["a", "b.p"]⟩, ⟨.root, ["a.p"]⟩] ∧ (yielded w.found).1.Pairwise (· < ·)) ∧
    directoryBetween.walk {} ⟨.root, ["m"]⟩ = .error (.inaccessible ⟨.missing, ⟨.root, ["m"]⟩⟩) ∧
      directoryBetween.sourceFiles {} ⟨.root, ["m"]⟩ = .error (.inaccessible ⟨.missing, ⟨.root, ["m"]⟩⟩) := by
  have hroot : directoryBetween.directoryAt ⟨.root, []⟩ = .ok [] := rfl
  have hwalk := walk_of_directoryAt {} hroot
  have hmissing : directoryBetween.walk {} ⟨.root, ["m"]⟩ = .error (.inaccessible ⟨.missing, ⟨.root, ["m"]⟩⟩) := rfl
  constructor
  · exact ⟨_, hwalk, congrArg Prod.fst yielded_directoryBetween,
      ((walk_yields_in_order directoryBetween {} ⟨.root, []⟩).2 _ hwalk).2.1⟩
  · exact ⟨hmissing, (walk_yields_in_order directoryBetween {} ⟨.root, ["m"]⟩).1 _ hmissing⟩

end FileSystem

end TestDiscovery
