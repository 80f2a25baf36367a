-- SUMMARY: The walk lists the reachable directories, each once, and finds exactly the sources in them.
import TestDiscovery.Proofs.Discovery.Agenda
import TestDiscovery.Proofs.Files.Spelling

/-!
# Coverage

A directory is reachable if entries with names that are not excluded lead to it from the root, directly or through
links. The walk lists the reachable directories, each of them once, whatever links lead back. The files that it finds
are the sources in these directories, each once under the directory that really holds the entry.
-/

namespace TestDiscovery

namespace Walk

/-! ## What a walk yields -/

/-- The files found before the first entry that could not be examined, and the fault at that entry. -/
def yielded : List (Except FileError Path) → List Path × Option FileError
  | [] => ([], none)
  | .ok file :: rest => (file :: (yielded rest).1, (yielded rest).2)
  | .error e :: _ => ([], some e)

/-- What was found, unless there is a fault after it. -/
def unlessFault {α : Type} (found : α) : Option FileError → Except FileError α
  | none => .ok found
  | some e => .error e

theorem mapM_id_eq_yielded (rs : List (Except FileError Path)) :
    rs.mapM id = unlessFault (yielded rs).1 (yielded rs).2 := by
  induction rs with
  | nil => rfl
  | cons r rs ih =>
    cases r with
    | error e => rfl
    | ok file =>
      rw [List.mapM_cons, ih]
      cases hfault : (yielded rs).2 with
      | none => simp [yielded, unlessFault, hfault, bind, Except.bind, pure, Except.pure]
      | some e => simp [yielded, unlessFault, hfault, bind, Except.bind]

theorem ok_mem_of_mem_yielded {rs : List (Except FileError Path)} {f : Path} (h : f ∈ (yielded rs).1) : .ok f ∈ rs := by
  induction rs with
  | nil => exact absurd h List.not_mem_nil
  | cons r rs ih =>
    cases r with
    | error e => exact absurd h List.not_mem_nil
    | ok file =>
      rcases List.mem_cons.1 h with rfl | h
      · exact List.mem_cons_self
      · exact List.mem_cons_of_mem _ (ih h)

/-- What is yielded is found first, in this order. -/
theorem prefix_of_yielded (rs : List (Except FileError Path)) : (yielded rs).1.map .ok <+: rs := by
  induction rs with
  | nil => exact List.prefix_rfl
  | cons r rs ih =>
    cases r with
    | error e => exact List.nil_prefix
    | ok f => exact (List.prefix_cons_inj _).2 ih

/-- What holds of any two files that are found holds of any two that are yielded. -/
theorem pairwise_yielded_of_found {R : Path → Path → Prop} {rs : List (Except FileError Path)}
    (h : rs.Pairwise fun r r' => ∀ f g, r = .ok f → r' = .ok g → R f g) : (yielded rs).1.Pairwise R := by
  have hyielded := h.sublist (prefix_of_yielded rs).sublist
  rw [List.pairwise_map] at hyielded
  exact hyielded.imp fun hrel => hrel _ _ rfl rfl

/-- Without faults everything is yielded. -/
theorem yielded_map_ok (files : List Path) : yielded (files.map .ok) = (files, none) := by
  induction files with
  | nil => rfl
  | cons file files ih =>
    rw [List.map_cons, yielded, ih]

theorem eq_map_of_yielded {rs : List (Except FileError Path)} (h : (yielded rs).2 = none) :
    rs = (yielded rs).1.map .ok := by
  induction rs with
  | nil => rfl
  | cons r rs ih =>
    cases r with
    | error e => cases h
    | ok file =>
      rw [yielded, List.map_cons, ← ih h]

/-- A fault is met if there is one. -/
theorem exists_fault_of_mem {rs : List (Except FileError Path)} {e : FileError} (h : .error e ∈ rs) :
    ∃ e', .error e' ∈ rs ∧ (yielded rs).2 = some e' := by
  induction rs with
  | nil => exact absurd h List.not_mem_nil
  | cons r rs ih =>
    cases r with
    | error e' => exact ⟨e', List.mem_cons_self, rfl⟩
    | ok file =>
      obtain ⟨e', hmem, hfault⟩ := ih (by simpa using h)
      exact ⟨e', List.mem_cons_of_mem _ hmem, hfault⟩

/-! ## Reachable directories -/

/-- The directories that entries which are not excluded lead to from `top`, links followed. -/
inductive Reachable (t : FileTree) (o : Options) (top : Location) : Location → Prop
  | top : Reachable t o top top
  | descend {dir place : Location} {name : String} (above : Reachable t o top dir)
      (listed : (t.get? (name :: dir)).isSome) (leads : t.entry dir name = .ok (place, .dir))
      (kept : name ∉ o.excludeDirs) : Reachable t o top place

/-- An entry that is a regular file, or leads to one, and has the suffix of a source. -/
structure HoldsSource (t : FileTree) (o : Options) (dir : Location) (name : String) : Prop where
  listed : (t.get? (name :: dir)).isSome
  leads : ∃ place bytes, t.entry dir name = .ok (place, .file bytes)
  suffix : hasSuffix o.extensions name = true

/-- An entry of a reachable directory is a link through a name that no file can have. -/
def Unfit (t : FileTree) (o : Options) (top : Location) : Prop :=
  ∃ dir name, Reachable t o top dir ∧ (t.get? (name :: dir)).isSome ∧ t.entry dir name = .error .nameTooLong

/-- A link to a name that no file can have cannot be examined. -/
theorem entry_of_overlong_link {t : FileTree} {dir : Location} {name target : String}
    (hget : t.get? (name :: dir) = some (.link target)) (hslash : '/' ∉ target.toList)
    (hlong : maxNameLength < target.utf8ByteSize) : t.entry dir name = .error .nameTooLong := by
  obtain ⟨hdir, hname⟩ := FileTree.parent_isDir hget
  have hfile := FileName.of_isFileName hname
  have hpieces : Path.pieces target = [target] := by
    rw [Path.pieces, Text.splitOn_of_not_mem hslash, List.map_singleton, String.ofList_toList]
  have hshort : ∀ piece : String, piece.utf8ByteSize ≤ maxNameLength → target ≠ piece := by
    rintro piece hpiece rfl
    omega
  have hempty : target ≠ "" := hshort "" (by simp)
  have hdot : target ≠ "." := hshort "." (by decide)
  have hdots : target ≠ ".." := hshort ".." (by decide)
  have hrelative : (Path.parse target).isAbsolute = false := by
    cases hchars : target.toList with
    | nil => simp [Path.parse, Path.isAbsolute, hchars, Path.anchorOf]
    | cons c s =>
      have hc : c ≠ '/' := by
        rintro rfl
        simp [hchars] at hslash
      simp [Path.parse, Path.isAbsolute, hchars, Path.anchorOf, hc]
  -- The link itself is a place, so the target is followed at some depth.
  obtain ⟨depth, hdepth⟩ : ∃ depth, t.entries.length = depth + 1 := by
    refine Nat.exists_eq_succ_of_ne_zero fun hnone => ?_
    rw [FileTree.get?_eq_some_iff (by simp), List.length_eq_zero_iff.1 hnone] at hget
    exact absurd hget List.not_mem_nil
  have htarget : t.followDepth (depth + 1) dir [target] = .error .nameTooLong := by
    simp [FileTree.followDepth, FileTree.followWith, FileTree.isDirAt, hdir, hempty, hdot, hdots, hlong]
  have hfollow : t.follow dir [name] = .error .nameTooLong := by
    rw [FileTree.follow, hdepth, FileTree.followDepth]
    simp [FileTree.followWith, FileTree.isDirAt, hdir, hfile.ne_empty, hfile.ne_dot, hfile.ne_dots,
      Nat.not_lt.2 hfile.short, hget, hrelative, hpieces, htarget]
  rw [FileTree.entry, hfollow]

namespace Item

/-- The directory that an entry belongs to, and its name. -/
def key (i : Item) : Location × String := (i.dir, i.name)

theorem sight?_eq_ok_iff {t : FileTree} {o : Options} {i : Item} {p : Path} :
    i.sight? t o = some (.ok p) ↔
      p = i.full ∧ (∃ place bytes, t.entry i.dir i.name = .ok (place, .file bytes)) ∧
        hasSuffix o.extensions i.name = true := by
  simp only [sight?, Walk.sight?, full, Path.name_child]
  split
  · next place bytes hentry =>
    split
    · next hsuffix => simp [hentry, hsuffix, eq_comm]
    · next hsuffix => simp [hsuffix]
  · simp_all
  · next hfile _ =>
    simp only [reduceCtorEq, false_iff, not_and]
    rintro rfl ⟨place, bytes, hentry⟩
    exact absurd hentry (hfile place bytes)

theorem sight?_eq_error_iff {t : FileTree} {o : Options} {i : Item} {e : FileError} :
    i.sight? t o = some (.error e) ↔ e = ⟨.nameTooLong, i.full⟩ ∧ t.entry i.dir i.name = .error .nameTooLong := by
  simp only [sight?, Walk.sight?]
  split
  · next hentry => cases hsuffix : hasSuffix o.extensions i.full.name <;> simp [hentry]
  · next hentry => simp [hentry, eq_comm]
  · next _ hlong =>
    simp only [reduceCtorEq, false_iff, not_and]
    exact fun _ hentry => hlong hentry

end Item

theorem nodup_keys_items {t : FileTree} {path : Path} {dir : Location} :
    ((items t path dir).map Item.key).Nodup := by
  have hkeys : (items t path dir).map Item.key = (t.names dir).map (dir, ·) := by simp [items, Item.key]
  rw [hkeys]
  exact FileTree.nodup_names.map fun _ _ h => (Prod.mk.inj h).2

theorem filterMap_sight?_eq {t : FileTree} {o : Options} {passed : List Item}
    (h : ∀ i ∈ passed, ∀ e, i.sight? t o ≠ some (.error e)) :
    passed.filterMap (Item.sight? t o) =
      ((passed.filter fun i => (i.sight? t o).isSome).map Item.full).map .ok := by
  induction passed with
  | nil => rfl
  | cons i passed ih =>
    have ih := ih fun j hj => h j (List.mem_cons_of_mem _ hj)
    cases hsight : i.sight? t o with
    | none => simpa [hsight] using ih
    | some sight =>
      cases sight with
      | error e => exact absurd hsight (h i List.mem_cons_self e)
      | ok p => simpa [hsight, (Item.sight?_eq_ok_iff.1 hsight).1] using ih

/-! ## What a run does with its agenda -/

namespace Runs

variable {t : FileTree} {o : Options} {a passed : List Item} {e e' : Entered}

/-- No directory is entered twice. -/
theorem nodup_places (h : Runs t o a e passed e') (he : (places e).Nodup) : (places e').Nodup := by
  induction h with
  | done => exact he
  | enter target fresh below ih => exact ih (List.nodup_cons.2 ⟨fresh, he⟩)
  | pass stale next ih => exact ih he

/-- An entry of the agenda that leads into a directory sees to it that the directory is entered; any other is passed. -/
theorem settles (h : Runs t o a e passed e') {i : Item} (hi : i ∈ a) :
    (∀ place, i.target? t o = some place → place ∈ places e') ∧ (i.target? t o = none → i ∈ passed) := by
  induction h with
  | done => exact absurd hi List.not_mem_nil
  | @enter j rest passed e e' place target fresh below ih =>
    rcases List.mem_cons.1 hi with rfl | hi
    · refine ⟨?_, fun hnone => absurd (target.symm.trans hnone) (by simp)⟩
      intro place' htarget
      cases Option.some.inj (target.symm.trans htarget)
      exact List.map_subset _ below.entered_mono List.mem_cons_self
    · exact ih (List.mem_append_right _ hi)
  | @pass j rest passed e e' stale next ih =>
    rcases List.mem_cons.1 hi with rfl | hi
    · exact ⟨fun place htarget => List.map_subset _ next.entered_mono (stale place htarget), fun _ => List.mem_cons_self⟩
    · exact ⟨(ih hi).1, fun hnone => List.mem_cons_of_mem _ ((ih hi).2 hnone)⟩

/-- The same for each entry of a directory that the run enters. -/
theorem settles_entered (h : Runs t o a e passed e') {path : Path} {dir : Location} {name : String}
    (hdir : (path, dir) ∈ e') (hnew : (path, dir) ∉ e) (hname : name ∈ t.names dir) :
    (∀ place, Item.target? t o ⟨path, dir, name⟩ = some place → place ∈ places e') ∧
      (Item.target? t o ⟨path, dir, name⟩ = none → ⟨path, dir, name⟩ ∈ passed) := by
  induction h with
  | done => exact absurd hdir hnew
  | @enter j rest passed e e' place target fresh below ih =>
    by_cases hsame : (path, dir) = (j.full, place)
    · cases hsame
      exact below.settles (List.mem_append_left _ (mem_items_iff.2 ⟨rfl, rfl, hname⟩))
    · exact ih hdir (by simp [hsame, hnew])
  | @pass j rest passed e e' stale next ih =>
    obtain ⟨hplace, hpassed⟩ := ih hdir hnew
    exact ⟨hplace, fun hnone => List.mem_cons_of_mem _ (hpassed hnone)⟩

/-- Entries are passed once, and each is an entry of the agenda or of a directory that the run enters. -/
theorem nodup_passed (h : Runs t o a e passed e') (ha : Listed t a e) (hkeys : (a.map Item.key).Nodup) :
    (passed.map Item.key).Nodup ∧ ∀ i ∈ passed, i ∈ a ∨ i.dir ∉ places e := by
  induction h with
  | done => exact ⟨List.nodup_nil, fun _ hi => absurd hi List.not_mem_nil⟩
  | @enter j rest passed e e' place target fresh below ih =>
    rw [List.map_cons, List.nodup_cons] at hkeys
    have hbelow : ((items t j.full place ++ rest).map Item.key).Nodup := by
      rw [List.map_append, List.nodup_append]
      refine ⟨nodup_keys_items, hkeys.2, ?_⟩
      -- The directory is new, and those of the rest are not.
      intro k hk k' hk' hsame
      obtain ⟨i, hi, rfl⟩ := List.mem_map.1 hk
      obtain ⟨i', hi', rfl⟩ := List.mem_map.1 hk'
      have hdir : i.dir = i'.dir := congrArg Prod.fst hsame
      rw [(mem_items_iff.1 hi).2.1] at hdir
      exact fresh (hdir ▸ List.mem_map_of_mem (ha.tail i' hi').1)
    obtain ⟨hnodup, hfrom⟩ := ih ha.enter hbelow
    refine ⟨hnodup, fun i hi => ?_⟩
    rcases hfrom i hi with hi | hi
    · rcases List.mem_append.1 hi with hi | hi
      · exact .inr ((mem_items_iff.1 hi).2.1 ▸ fresh)
      · exact .inl (List.mem_cons_of_mem _ hi)
    · exact .inr (fun hmem => hi (List.mem_cons_of_mem _ hmem))
  | @pass j rest passed e e' stale next ih =>
    rw [List.map_cons, List.nodup_cons] at hkeys
    obtain ⟨hnodup, hfrom⟩ := ih ha.tail hkeys.2
    refine ⟨List.nodup_cons.2 ⟨?_, hnodup⟩, ?_⟩
    · intro hmem
      obtain ⟨i, hi, hsame⟩ := List.mem_map.1 hmem
      have hdir : i.dir = j.dir := congrArg Prod.fst hsame
      rcases hfrom i hi with hi | hi
      · exact hkeys.1 (List.mem_map.2 ⟨i, hi, hsame⟩)
      · exact hi (hdir ▸ List.mem_map_of_mem (ha j List.mem_cons_self).1)
    · intro i hi
      rcases List.mem_cons.1 hi with rfl | hi
      · exact .inl List.mem_cons_self
      · exact (hfrom i hi).imp_left (List.mem_cons_of_mem _)

end Runs

/-! ## The walk of a directory -/

section

variable {t : FileTree} {o : Options} {path : Path} {dir : Location}

/-- The walk lists every directory that it enters once. -/
theorem nodup_entered (hdir : t.isDirAt dir = true) : (places (ofDirectory t o path dir).entered).Nodup := by
  obtain ⟨passed, hruns, -⟩ := runs_ofDirectory o path hdir
  exact hruns.nodup_places (List.nodup_singleton dir)

/-- All that an entered directory leads to has been entered as well, and its other entries have been passed. -/
theorem runs_settled (o : Options) (path : Path) (hdir : t.isDirAt dir = true) :
    ∃ passed, Runs t o (items t path dir) [(path, dir)] passed (ofDirectory t o path dir).entered ∧
      (ofDirectory t o path dir).found = passed.filterMap (Item.sight? t o) ∧
      ∀ p d, (p, d) ∈ (ofDirectory t o path dir).entered → ∀ name ∈ t.names d,
        (∀ place, Item.target? t o ⟨p, d, name⟩ = some place → place ∈ places (ofDirectory t o path dir).entered) ∧
        (Item.target? t o ⟨p, d, name⟩ = none → ⟨p, d, name⟩ ∈ passed) := by
  obtain ⟨passed, hruns, hfound⟩ := runs_ofDirectory o path hdir
  refine ⟨passed, hruns, hfound, ?_⟩
  intro p d hmem name hname
  by_cases hroot : (p, d) ∈ [(path, dir)]
  · cases List.mem_singleton.1 hroot
    exact hruns.settles (mem_items_iff.2 ⟨rfl, rfl, hname⟩)
  · exact hruns.settles_entered hmem hroot hname

/-- The walk enters only what can be reached. -/
theorem reachable_of_entered (hdir : t.isDirAt dir = true) {p : Path} {d : Location}
    (h : (p, d) ∈ (ofDirectory t o path dir).entered) : Reachable t o dir d := by
  apply invariant_ofDirectory (P := fun _ d => Reachable t o dir d) hdir .top ?_ h
  intro i hi hname place htarget
  obtain ⟨hleads, hkept⟩ := Item.target?_eq_some_iff.1 htarget
  exact .descend hi (FileTree.mem_names_iff.1 hname) hleads hkept

/-- The walk enters exactly the reachable directories. -/
theorem mem_entered_iff (path : Path) (hdir : t.isDirAt dir = true) {d : Location} :
    d ∈ places (ofDirectory t o path dir).entered ↔ Reachable t o dir d := by
  obtain ⟨passed, hruns, -, hsettled⟩ := runs_settled o path hdir
  constructor
  · intro hmem
    obtain ⟨⟨p, d'⟩, hentered, rfl⟩ := List.mem_map.1 hmem
    exact reachable_of_entered hdir hentered
  · intro hreach
    induction hreach with
    | top => exact List.map_subset _ hruns.entered_mono List.mem_cons_self
    | @descend d place name above listed leads kept ih =>
      obtain ⟨⟨p, d'⟩, hentered, rfl⟩ := List.mem_map.1 ih
      exact (hsettled p d' hentered name (FileTree.mem_names_iff.2 listed)).1 place
        (Item.target?_eq_some_iff.2 ⟨leads, kept⟩)

/-- What is found is a source in an entered directory. -/
theorem entry_of_ok_mem_found (hdir : t.isDirAt dir = true) {f : Path} (hf : .ok f ∈ (ofDirectory t o path dir).found) :
    ∃ p d name, f = p.child name ∧ (p, d) ∈ (ofDirectory t o path dir).entered ∧ HoldsSource t o d name := by
  obtain ⟨passed, hruns, hfound⟩ := runs_ofDirectory o path hdir
  rw [hfound, List.mem_filterMap] at hf
  obtain ⟨i, hi, hsight⟩ := hf
  obtain ⟨rfl, hleads, hsuffix⟩ := Item.sight?_eq_ok_iff.1 hsight
  obtain ⟨hentered, hname⟩ := hruns.listed_passed (.items t path dir) i hi
  exact ⟨i.path, i.dir, i.name, rfl, hentered, FileTree.mem_names_iff.1 hname, hleads, hsuffix⟩

end

end Walk

/-! ## The source files of a root -/

namespace FileSystem

open Walk

/-- The real directory that the path of a file names above its last name, and that name. -/
def siteOf (fs : FileSystem) (file : Path) : Except Failure (Location × String) :=
  (fs.placeOf file.parent).map (·, file.name)

theorem placeOf_of_locate {fs : FileSystem} {p : Path} {place : Location} (h : fs.locate p = .ok place)
    (hnul : p.hasNul = false) : fs.placeOf p = .ok place := by
  simp [placeOf, hnul, resolve_of_locate h]

theorem directoryAt_eq_ok_iff {fs : FileSystem} {p : Path} {place : Location} :
    fs.directoryAt p = .ok place ↔ p.hasNul = false ∧ fs.locate p = .ok place ∧ fs.tree.isDirAt place = true := by
  simp only [directoryAt, directory]
  cases hnul : p.hasNul with
  | true => simp
  | false =>
    cases hlocate : fs.locate p with
    | error fault => simp [Except.mapError]
    | ok reached =>
      by_cases hdir : fs.tree.isDirAt reached = true
      · simp only [hdir, if_true, Except.mapError, Bool.false_eq_true, if_false, Except.ok.injEq, true_and]
        exact ⟨fun h => ⟨h, h ▸ hdir⟩, fun h => h.1⟩
      · simp only [hdir, Except.mapError, Bool.false_eq_true, if_false, reduceCtorEq, Except.ok.injEq, true_and, false_iff]
        rintro ⟨rfl, hplace⟩
        exact hdir hplace

theorem walk_of_directoryAt {fs : FileSystem} {root : Path} {top : Location} (o : Options)
    (h : fs.directoryAt root = .ok top) : fs.walk o root = .ok (ofDirectory fs.tree o root top) := by
  obtain ⟨hnul, hlocate, -⟩ := directoryAt_eq_ok_iff.1 h
  simp only [walk, placeOf_of_locate hlocate hnul, h]
  rfl

/-- A walk starts at a directory. -/
theorem directoryAt_of_walk {fs : FileSystem} {o : Options} {root : Path} {w : Walk} (h : fs.walk o root = .ok w) :
    ∃ top, fs.directoryAt root = .ok top ∧ w = ofDirectory fs.tree o root top := by
  cases hdirectory : fs.directoryAt root with
  | ok top =>
    rw [walk_of_directoryAt o hdirectory] at h
    cases h
    exact ⟨top, rfl, rfl⟩
  | error e =>
    unfold walk at h
    rw [hdirectory] at h
    cases hplace : fs.placeOf root <;> simp [hplace, bind, Except.bind] at h

section

variable {fs : FileSystem} {o : Options} {root : Path} {top : Location}

theorem sourceFiles_of_directoryAt (o : Options) (h : fs.directoryAt root = .ok top) :
    fs.sourceFiles o root = (unlessFault (yielded (ofDirectory fs.tree o root top).found).1
      (yielded (ofDirectory fs.tree o root top).found).2).mapError .inaccessible := by
  rw [← mapM_id_eq_yielded]
  simp only [sourceFiles, walk_of_directoryAt o h]
  rfl

/-- Source files are all that the walk finds, if there are any. -/
theorem found_of_sourceFiles {files : List Path} (h : fs.directoryAt root = .ok top)
    (hfiles : fs.sourceFiles o root = .ok files) : (ofDirectory fs.tree o root top).found = files.map .ok := by
  rw [sourceFiles_of_directoryAt o h] at hfiles
  cases hfault : (yielded (ofDirectory fs.tree o root top).found).2 with
  | some e =>
    rw [hfault] at hfiles
    cases hfiles
  | none =>
    rw [hfault] at hfiles
    cases hfiles
    exact eq_map_of_yielded hfault

/-- An unfit entry in a reachable directory ends the enumeration with a failure. -/
theorem sourceFiles_of_unfit (h : fs.directoryAt root = .ok top) (hunfit : Unfit fs.tree o top) :
    ∃ p, fs.sourceFiles o root = .error (.inaccessible ⟨.nameTooLong, p⟩) := by
  obtain ⟨-, -, hdir⟩ := directoryAt_eq_ok_iff.1 h
  obtain ⟨dir, name, hreach, listed, hlong⟩ := hunfit
  obtain ⟨passed, hruns, hfound, hsettled⟩ := runs_settled o root hdir
  obtain ⟨⟨p, d⟩, hentered, rfl⟩ := List.mem_map.1 ((mem_entered_iff root hdir).2 hreach)
  have hnone : Item.target? fs.tree o ⟨p, d, name⟩ = none := by simp [Item.target?, hlong]
  have hpassed := (hsettled p d hentered name (FileTree.mem_names_iff.2 listed)).2 hnone
  have hmem : .error ⟨.nameTooLong, p.child name⟩ ∈ (ofDirectory fs.tree o root top).found := by
    rw [hfound, List.mem_filterMap]
    exact ⟨_, hpassed, Item.sight?_eq_error_iff.2 ⟨rfl, hlong⟩⟩
  obtain ⟨e, he, hfault⟩ := exists_fault_of_mem hmem
  rw [hfound, List.mem_filterMap] at he
  obtain ⟨i, -, hsight⟩ := he
  obtain ⟨rfl, -⟩ := Item.sight?_eq_error_iff.1 hsight
  refine ⟨i.full, ?_⟩
  rw [sourceFiles_of_directoryAt o h, hfault]
  rfl

/-- Without unfit entries the source files are the paths of the passed entries that are sources. -/
theorem sourceFiles_of_fit (h : fs.directoryAt root = .ok top) (hfit : ¬ Unfit fs.tree o top) :
    ∃ sources : List Item, fs.sourceFiles o root = .ok (sources.map Item.full) ∧ (sources.map Item.key).Nodup ∧
      ∀ p d name, ⟨p, d, name⟩ ∈ sources ↔
        (p, d) ∈ (ofDirectory fs.tree o root top).entered ∧ HoldsSource fs.tree o d name := by
  obtain ⟨-, -, hdir⟩ := directoryAt_eq_ok_iff.1 h
  obtain ⟨passed, hruns, hfound, hsettled⟩ := runs_settled o root hdir
  have hlisted : Listed fs.tree passed (ofDirectory fs.tree o root top).entered :=
    hruns.listed_passed (.items fs.tree root top)
  have hclean : ∀ i ∈ passed, ∀ e, i.sight? fs.tree o ≠ some (.error e) := by
    intro i hi e hsight
    obtain ⟨hentered, hname⟩ := hlisted i hi
    exact hfit ⟨i.dir, i.name, reachable_of_entered hdir hentered, FileTree.mem_names_iff.1 hname,
      (Item.sight?_eq_error_iff.1 hsight).2⟩
  refine ⟨passed.filter fun i => (i.sight? fs.tree o).isSome, ?_, ?_, ?_⟩
  · rw [sourceFiles_of_directoryAt o h, hfound, filterMap_sight?_eq hclean, yielded_map_ok]
    rfl
  · have hkeys := (hruns.nodup_passed (.items fs.tree root top) nodup_keys_items).1
    exact (List.filter_sublist.map Item.key).nodup hkeys
  · intro p d name
    rw [List.mem_filter, Option.isSome_iff_exists]
    constructor
    · rintro ⟨hpassed, sight, hsight⟩
      obtain ⟨hentered, hname⟩ := hlisted _ hpassed
      cases sight with
      | error e => exact absurd hsight (hclean _ hpassed e)
      | ok p' =>
        obtain ⟨-, hleads, hsuffix⟩ := Item.sight?_eq_ok_iff.1 hsight
        exact ⟨hentered, FileTree.mem_names_iff.1 hname, hleads, hsuffix⟩
    · rintro ⟨hentered, hsource⟩
      obtain ⟨place, bytes, hleads⟩ := hsource.leads
      have hnone : Item.target? fs.tree o ⟨p, d, name⟩ = none := by simp [Item.target?, hleads]
      exact ⟨(hsettled p d hentered name (FileTree.mem_names_iff.2 hsource.listed)).2 hnone, .ok (p.child name),
        Item.sight?_eq_ok_iff.2 ⟨rfl, hsource.leads, hsource.suffix⟩⟩

/-- The paths of entered directories lead to them. -/
theorem locate_of_entered {p : Path} {d : Location} (h : fs.directoryAt root = .ok top)
    (hentered : (p, d) ∈ (ofDirectory fs.tree o root top).entered) : fs.locate p = .ok d ∧ p.hasNul = false := by
  obtain ⟨hnul, hlocate, hdir⟩ := directoryAt_eq_ok_iff.1 h
  apply invariant_ofDirectory (P := fun p d => fs.locate p = .ok d ∧ p.hasNul = false) hdir ⟨hlocate, hnul⟩ ?_ hentered
  intro i hi hname place htarget
  have hfollow := (FileTree.follow_of_entry (Item.target?_eq_some_iff.1 htarget).1).1
  exact ⟨(locate_child i.name hi.1).trans hfollow,
    Path.hasNul_child hi.2 (.of_isFileName (FileTree.isFileName_of_mem_names hname))⟩

/-- Every larger bound on the depth gives the same walk, which lists each reachable directory once and finds each source
in them once, under the directory that really holds it; an unfit entry ends it with a failure. -/
theorem sourceFiles_exact (o : Options) (h : fs.directoryAt root = .ok top) :
    fs.placeOf root = .ok top ∧
    (∀ depth, fs.tree.directories.length + 1 < depth → fs.walk o root = .ok (within fs.tree o depth [] root top)) ∧
    (Unfit fs.tree o top → ∃ p, fs.sourceFiles o root = .error (.inaccessible ⟨.nameTooLong, p⟩)) ∧
    (¬ Unfit fs.tree o top → ∃ (w : Walk) (files : List Path) (sites : List (Location × String)),
      fs.walk o root = .ok w ∧ (places w.entered).Nodup ∧ (∀ d, d ∈ places w.entered ↔ Reachable fs.tree o top d) ∧
      fs.sourceFiles o root = .ok files ∧ files.map fs.siteOf = sites.map .ok ∧ sites.Nodup ∧
      ∀ d name, (d, name) ∈ sites ↔ Reachable fs.tree o top d ∧ HoldsSource fs.tree o d name) := by
  obtain ⟨hnul, hlocate, hdir⟩ := directoryAt_eq_ok_iff.1 h
  refine ⟨placeOf_of_locate hlocate hnul, ?_, sourceFiles_of_unfit h, ?_⟩
  · intro depth hdepth
    rw [walk_of_directoryAt o h, within_eq_ofDirectory hdir hdepth]
  · intro hfit
    obtain ⟨sources, hfiles, hnodup, hmem⟩ := sourceFiles_of_fit h hfit
    refine ⟨_, _, sources.map Item.key, walk_of_directoryAt o h, nodup_entered hdir, fun d => mem_entered_iff root hdir,
      hfiles, ?_, hnodup, ?_⟩
    · rw [List.map_map, List.map_map, List.map_inj_left]
      intro i hi
      obtain ⟨hlocated, hclean⟩ := locate_of_entered h ((hmem i.path i.dir i.name).1 hi).1
      simp [siteOf, Item.full, Item.key, placeOf_of_locate hlocated hclean, Except.map]
    · intro d name
      rw [← mem_entered_iff root hdir]
      constructor
      · intro hsite
        obtain ⟨i, hi, hkey⟩ := List.mem_map.1 hsite
        obtain ⟨rfl, rfl⟩ := Prod.mk.inj hkey
        obtain ⟨hentered, hsource⟩ := (hmem i.path i.dir i.name).1 hi
        exact ⟨List.mem_map_of_mem hentered, hsource⟩
      · rintro ⟨hplace, hsource⟩
        obtain ⟨⟨p, d'⟩, hentered, rfl⟩ := List.mem_map.1 hplace
        exact List.mem_map.2 ⟨⟨p, d', name⟩, (hmem p d' name).2 ⟨hentered, hsource⟩, rfl⟩

end

/-! ### Links back and overlong links -/

/-- A root with a source and a link to itself. -/
def selfLinked : FileSystem where
  tree := .shallow [("a.p", .file []), ("b", .link ".")] (by decide) (by decide)

theorem sourceFiles_exact_selfLinked :
    selfLinked.directoryAt ⟨.root, []⟩ = .ok [] ∧ ∃ files, selfLinked.sourceFiles {} ⟨.root, []⟩ = .ok files ∧
      files.map selfLinked.siteOf = [.ok ([], "a.p")] := by
  have hroot : selfLinked.directoryAt ⟨.root, []⟩ = .ok [] := rfl
  have hfile : selfLinked.tree.entry [] "a.p" = .ok (["a.p"], .file []) := rfl
  have hlink : selfLinked.tree.entry [] "b" = .ok ([], .dir) := rfl
  have hnames : ∀ name dir, (selfLinked.tree.get? (name :: dir)).isSome → dir = [] ∧ (name = "a.p" ∨ name = "b") := by
    intro name dir hlisted
    obtain ⟨node, hnode⟩ := Option.isSome_iff_exists.1 hlisted
    obtain ⟨hdir, hmem⟩ := (FileTree.get?_shallow (by decide) (by decide)).1 hnode
    simp only [List.mem_cons, Prod.mk.injEq, List.not_mem_nil, or_false] at hmem
    exact ⟨hdir, hmem.imp And.left And.left⟩
  have hfit : ¬ Unfit selfLinked.tree {} [] := by
    rintro ⟨dir, name, -, hlisted, hlong⟩
    obtain ⟨rfl, rfl | rfl⟩ := hnames name dir hlisted
    · simp [hfile] at hlong
    · simp [hlink] at hlong
  have hreach : ∀ d, Reachable selfLinked.tree {} [] d → d = [] := by
    intro d hd
    induction hd with
    | top => rfl
    | @descend dir place name above listed leads kept ih =>
      obtain ⟨rfl, rfl | rfl⟩ := hnames name dir listed
      · simp [hfile] at leads
      · simpa [hlink] using leads
  obtain ⟨w, files, sites, -, -, -, hfiles, hsites, hnodup, hmem⟩ := (sourceFiles_exact {} hroot).2.2.2 hfit
  have hsingle : sites = [([], "a.p")] := by
    refine List.perm_singleton.1 ((List.perm_ext_iff_of_nodup hnodup (List.nodup_singleton _)).2 ?_)
    rintro ⟨d, name⟩
    rw [hmem, List.mem_singleton, Prod.mk.injEq]
    constructor
    · rintro ⟨hd, hsource⟩
      obtain ⟨rfl, rfl | rfl⟩ := hnames name d hsource.listed
      · exact ⟨rfl, rfl⟩
      · obtain ⟨place, bytes, hleads⟩ := hsource.leads
        simp [hlink] at hleads
    · rintro ⟨rfl, rfl⟩
      exact ⟨.top, ⟨rfl, ⟨_, _, hfile⟩, by decide⟩⟩
  exact ⟨hroot, files, hfiles, by rw [hsites, hsingle]; rfl⟩

/-- A name with as many characters as wanted. -/
def longName (length : Nat) : String := String.ofList (List.replicate length 'x')

theorem utf8ByteSize_longName (length : Nat) : (longName length).utf8ByteSize = length := by
  have hsum : ∀ s : List Char, (String.ofList s).utf8ByteSize = (s.map Char.utf8Size).sum := by
    intro s
    induction s with
    | nil => rfl
    | cons c s ih =>
      rw [String.ofList_cons, String.utf8ByteSize_append, String.utf8ByteSize_singleton, ih]
      rfl
  rw [longName, hsum, List.map_replicate, List.sum_replicate_nat]
  exact Nat.mul_one length

/-- A root with nothing but a link to a name that is one byte too long. -/
def overlongLinked : FileSystem where
  tree := .shallow [("l", .link (longName 256))] (by decide) (by decide)

theorem sourceFiles_overlongLinked :
    overlongLinked.directoryAt ⟨.root, []⟩ = .ok [] ∧
      ¬ ∃ files, overlongLinked.sourceFiles {} ⟨.root, []⟩ = .ok files := by
  have hroot : overlongLinked.directoryAt ⟨.root, []⟩ = .ok [] := rfl
  refine ⟨hroot, ?_⟩
  rintro ⟨files, hfiles⟩
  have hget : overlongLinked.tree.get? ["l"] = some (.link (longName 256)) := rfl
  have hslash : '/' ∉ (longName 256).toList := by
    generalize 256 = length
    simp [longName, List.mem_replicate]
  have hlong : maxNameLength < (longName 256).utf8ByteSize := by
    rw [utf8ByteSize_longName]
    decide
  obtain ⟨p, hfails⟩ := sourceFiles_of_unfit (o := {}) hroot
    ⟨[], "l", .top, by simp [hget], entry_of_overlong_link hget hslash hlong⟩
  exact absurd (hfiles.symm.trans hfails) (by simp)

end FileSystem

end TestDiscovery
