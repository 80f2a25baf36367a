-- SUMMARY: The walk as a run over an agenda of entries, which ends and has one outcome.
import Mathlib.Data.Finset.Card
import TestDiscovery.Discovery.Sources
import TestDiscovery.Proofs.Files.Following

/-!
# Agendas

The walk bounds how deep it goes, and its levels hand the entered directories to each other. A run says the same with
a list of the entries that are still to be looked at and no bound: an entry that leads into a new directory is replaced
by the entries of that directory, any other entry is passed. The walk within enough levels is a run, and an agenda has
at most one run, so the bound is never met. What holds of a walk is shown by one induction over its run.
-/

namespace TestDiscovery.Walk

/-- The directories that have been entered, each with the path that it was entered by. -/
abbrev Entered := List (Path × Location)

/-- The places of the entered directories. -/
abbrev places (e : Entered) : List Location := e.map Prod.snd

/-- An entry of a directory: the path and the place of the directory, and the name. -/
structure Item where
  path : Path
  dir : Location
  name : String
deriving DecidableEq, Repr

namespace Item

/-- The path of an entry. -/
def full (i : Item) : Path := i.path.child i.name

/-- The directory that an entry leads into, unless its name is excluded. -/
def target? (t : FileTree) (o : Options) (i : Item) : Option Location :=
  match t.entry i.dir i.name with
  | .ok (place, .dir) => if o.excludeDirs.contains i.name then none else some place
  | _ => none

/-- What the walk finds at an entry. -/
def sight? (t : FileTree) (o : Options) (i : Item) : Option (Except FileError Path) :=
  Walk.sight? o i.full (t.entry i.dir i.name)

theorem target?_eq_some_iff {t : FileTree} {o : Options} {i : Item} {place : Location} :
    i.target? t o = some place ↔ t.entry i.dir i.name = .ok (place, .dir) ∧ i.name ∉ o.excludeDirs := by
  constructor
  · intro h
    simp only [target?] at h
    split at h
    · next reached hentry =>
      split at h
      · simp at h
      · next hname =>
        cases h
        exact ⟨hentry, by simpa using hname⟩
    · simp at h
  · rintro ⟨hentry, hname⟩
    simp [target?, hentry, hname]

theorem isDirAt_of_target? {t : FileTree} {o : Options} {i : Item} {place : Location}
    (h : i.target? t o = some place) : t.isDirAt place = true := by
  have hget := (FileTree.follow_of_entry (target?_eq_some_iff.1 h).1).2
  simp [FileTree.isDirAt, hget]

theorem sight?_eq_none_of_target? {t : FileTree} {o : Options} {i : Item} {place : Location}
    (h : i.target? t o = some place) : i.sight? t o = none := by
  simp [sight?, Walk.sight?, (target?_eq_some_iff.1 h).1]

end Item

/-- The entries of the directory at `dir`, whose path is `path`. -/
def items (t : FileTree) (path : Path) (dir : Location) : List Item := (t.names dir).map (⟨path, dir, ·⟩)

theorem mem_items_iff {t : FileTree} {path : Path} {dir : Location} {i : Item} :
    i ∈ items t path dir ↔ i.path = path ∧ i.dir = dir ∧ i.name ∈ t.names dir := by
  simp only [items, List.mem_map]
  constructor
  · rintro ⟨name, hname, rfl⟩
    exact ⟨rfl, rfl, hname⟩
  · rintro ⟨rfl, rfl, hname⟩
    exact ⟨i.name, hname, rfl⟩

/-- An agenda of entries of entered directories. -/
def Listed (t : FileTree) (a : List Item) (e : Entered) : Prop :=
  ∀ i ∈ a, (i.path, i.dir) ∈ e ∧ i.name ∈ t.names i.dir

namespace Listed

variable {t : FileTree} {i : Item} {rest : List Item} {e : Entered}

theorem items (t : FileTree) (path : Path) (dir : Location) : Listed t (items t path dir) [(path, dir)] := by
  intro i hi
  obtain ⟨rfl, rfl, hname⟩ := mem_items_iff.1 hi
  exact ⟨List.mem_singleton.2 rfl, hname⟩

theorem tail (h : Listed t (i :: rest) e) : Listed t rest e := fun j hj => h j (List.mem_cons_of_mem _ hj)

theorem enter {place : Location} (h : Listed t (i :: rest) e) :
    Listed t (Walk.items t i.full place ++ rest) ((i.full, place) :: e) := by
  intro j hj
  rcases List.mem_append.1 hj with hj | hj
  · obtain ⟨hpath, hdir, hname⟩ := mem_items_iff.1 hj
    rw [hpath, hdir]
    exact ⟨List.mem_cons_self, hname⟩
  · obtain ⟨hdir, hname⟩ := h.tail j hj
    exact ⟨List.mem_cons_of_mem _ hdir, hname⟩

end Listed

/-! ## Runs -/

/-- A run over an agenda, from the directories entered before it to those entered after it. It passes the entries
that lead into no new directory, in the order of the third list. -/
inductive Runs (t : FileTree) (o : Options) : List Item → Entered → List Item → Entered → Prop
  | done {e : Entered} : Runs t o [] e [] e
  | enter {i : Item} {rest passed : List Item} {e e' : Entered} {place : Location}
      (target : i.target? t o = some place) (fresh : place ∉ places e)
      (below : Runs t o (items t i.full place ++ rest) ((i.full, place) :: e) passed e') :
      Runs t o (i :: rest) e passed e'
  | pass {i : Item} {rest passed : List Item} {e e' : Entered}
      (stale : ∀ place, i.target? t o = some place → place ∈ places e) (next : Runs t o rest e passed e') :
      Runs t o (i :: rest) e (i :: passed) e'

namespace Runs

variable {t : FileTree} {o : Options} {a b passed passed' : List Item} {e e' e'' : Entered}

/-- Runs over two agendas, one after the other, are a run over both. -/
theorem append (h : Runs t o a e passed e') (h' : Runs t o b e' passed' e'') :
    Runs t o (a ++ b) e (passed ++ passed') e'' := by
  induction h with
  | done => exact h'
  | enter target fresh below ih =>
    refine .enter target fresh ?_
    simpa using ih h'
  | pass stale next ih => exact .pass stale (ih h')

/-- An agenda has at most one run. -/
theorem unique (h : Runs t o a e passed e') (h' : Runs t o a e passed' e'') : passed = passed' ∧ e' = e'' := by
  induction h generalizing passed' with
  | done =>
    cases h'
    exact ⟨rfl, rfl⟩
  | enter target fresh below ih =>
    cases h' with
    | enter target' fresh' below' =>
      cases Option.some.inj (target.symm.trans target')
      exact ih below'
    | pass stale' next' => exact absurd (stale' _ target) fresh
  | pass stale next ih =>
    cases h' with
    | enter target' fresh' below' => exact absurd (stale _ target') fresh'
    | pass stale' next' =>
      obtain ⟨hpassed, hentered⟩ := ih next'
      exact ⟨congrArg _ hpassed, hentered⟩

/-- A directory that was entered stays entered. -/
theorem entered_mono (h : Runs t o a e passed e') : e ⊆ e' := by
  induction h with
  | done => exact fun _ hx => hx
  | enter _ _ _ ih => exact fun _ hx => ih (List.mem_cons_of_mem _ hx)
  | pass _ _ ih => exact ih

/-- What holds of the directories that are entered at first, and passes from a directory to those that it leads into,
holds of all that the run enters. -/
theorem invariant {P : Path → Location → Prop}
    (step : ∀ i : Item, P i.path i.dir → i.name ∈ t.names i.dir → ∀ place, i.target? t o = some place → P i.full place)
    (h : Runs t o a e passed e') (ha : Listed t a e) (he : ∀ x ∈ e, P x.1 x.2) : ∀ x ∈ e', P x.1 x.2 := by
  induction h with
  | done => exact he
  | @enter i rest _ _ _ place target fresh below ih =>
    obtain ⟨hdir, hname⟩ := ha i List.mem_cons_self
    apply ih ha.enter
    intro x hx
    rcases List.mem_cons.1 hx with rfl | hx
    · exact step i (he _ hdir) hname place target
    · exact he x hx
  | pass stale next ih => exact ih ha.tail he

/-- What is passed is an entry of an entered directory. -/
theorem listed_passed (h : Runs t o a e passed e') (ha : Listed t a e) : Listed t passed e' := by
  induction h with
  | done => exact ha
  | enter target fresh below ih => exact ih ha.enter
  | @pass i rest _ _ _ stale next ih =>
    intro j hj
    rcases List.mem_cons.1 hj with rfl | hj
    · obtain ⟨hdir, hname⟩ := ha j List.mem_cons_self
      exact ⟨next.entered_mono hdir, hname⟩
    · exact ih ha.tail j hj

end Runs

/-! ## Levels of the walk -/

/-- The directories that have not been entered. -/
def unentered (t : FileTree) (e : Entered) : Finset Location := ([] :: t.directories).toFinset \ (places e).toFinset

theorem card_unentered_anti {t : FileTree} {e e' : Entered} (h : e ⊆ e') :
    (unentered t e').card ≤ (unentered t e).card := by
  refine Finset.card_le_card (Finset.sdiff_subset_sdiff (Finset.Subset.refl _) ?_)
  intro place hplace
  rw [List.mem_toFinset] at hplace ⊢
  exact List.map_subset _ h hplace

theorem card_unentered_cons {t : FileTree} {e : Entered} (path : Path) {dir : Location} (hdir : t.isDirAt dir = true)
    (hfresh : dir ∉ places e) : (unentered t ((path, dir) :: e)).card < (unentered t e).card := by
  refine Finset.card_lt_card (Finset.ssubset_iff_of_subset ?_ |>.2 ⟨dir, ?_, ?_⟩)
  · intro place hplace
    simp only [unentered, Finset.mem_sdiff, List.mem_toFinset, List.map_cons, List.mem_cons, not_or] at hplace ⊢
    exact ⟨hplace.1, hplace.2.2⟩
  · simp only [unentered, Finset.mem_sdiff, List.mem_toFinset]
    exact ⟨FileTree.mem_directories hdir, hfresh⟩
  · simp [unentered]

theorem card_unentered_nil (t : FileTree) : (unentered t []).card ≤ t.directories.length + 1 := by
  simpa [unentered] using List.toFinset_card_le ([] :: t.directories)

/-- The run that a walk of one directory stands for. -/
def Stands (t : FileTree) (o : Options) (e : Entered) (path : Path) (dir : Location) (w : Walk) : Prop :=
  (dir ∈ places e → w = { entered := e }) ∧
  (dir ∉ places e → ∃ passed, Runs t o (items t path dir) ((path, dir) :: e) passed w.entered ∧
    w.found = passed.filterMap (Item.sight? t o))

theorem visit_eq_of_target? {t : FileTree} {o : Options} {path : Path} {dir place : Location}
    {enter : Entered → Path → Location → Walk} {w : Walk} {name : String}
    (h : Item.target? t o ⟨path, dir, name⟩ = some place) :
    visit t o path dir enter w name =
      ⟨w.found ++ (enter w.entered (path.child name) place).found, (enter w.entered (path.child name) place).entered⟩ := by
  obtain ⟨hentry, hname⟩ := Item.target?_eq_some_iff.1 h
  simp only at hentry hname
  simp [visit, hentry, hname]

theorem visit_eq_of_no_target {t : FileTree} {o : Options} {path : Path} {dir : Location}
    {enter : Entered → Path → Location → Walk} {w : Walk} {name : String}
    (h : Item.target? t o ⟨path, dir, name⟩ = none) :
    visit t o path dir enter w name =
      { w with found := w.found ++ (Item.sight? t o ⟨path, dir, name⟩).toList } := by
  simp only [visit, Item.sight?]
  split
  · next place hentry =>
    have hex : name ∈ o.excludeDirs := by
      by_contra hex
      have htarget : Item.target? t o ⟨path, dir, name⟩ = some place := Item.target?_eq_some_iff.2 ⟨hentry, hex⟩
      exact absurd (h.symm.trans htarget) (by simp)
    simp [hentry, hex, sight?]
  · rfl

/-- One visit is a run over one entry, if the walks of the directories below are runs. -/
theorem runs_visit {t : FileTree} {o : Options} {enter : Entered → Path → Location → Walk} {w : Walk} (path : Path)
    (dir : Location) (name : String)
    (henter : ∀ p place, t.isDirAt place = true → Stands t o w.entered p place (enter w.entered p place)) :
    ∃ passed, Runs t o [⟨path, dir, name⟩] w.entered passed (visit t o path dir enter w name).entered ∧
      (visit t o path dir enter w name).found = w.found ++ passed.filterMap (Item.sight? t o) := by
  cases htarget : Item.target? t o ⟨path, dir, name⟩ with
  | none =>
    rw [visit_eq_of_no_target htarget]
    refine ⟨[⟨path, dir, name⟩], .pass (by simp [htarget]) .done, ?_⟩
    cases hsight : Item.sight? t o ⟨path, dir, name⟩ with
    | none => simp [hsight]
    | some sight => simp [hsight]
  | some place =>
    have hbelow := henter (path.child name) place (Item.isDirAt_of_target? htarget)
    rw [visit_eq_of_target? htarget]
    by_cases hplace : place ∈ places w.entered
    · have hbelow := hbelow.1 hplace
      refine ⟨[⟨path, dir, name⟩], .pass (by simpa [htarget] using hplace) ?_, ?_⟩
      · rw [hbelow]
        exact .done
      · simp [hbelow, Item.sight?_eq_none_of_target? htarget]
    · obtain ⟨passed, hruns, hfound⟩ := hbelow.2 hplace
      refine ⟨passed, .enter htarget hplace (by simpa [Item.full] using hruns), ?_⟩
      rw [hfound]

/-- The visits of several names are a run over their entries, as long as the walks of directories below are runs. -/
theorem runs_visits {t : FileTree} {o : Options} {enter : Entered → Path → Location → Walk} {w : Walk} (path : Path)
    (dir : Location) (names : List String)
    (henter : ∀ e p place, w.entered ⊆ e → t.isDirAt place = true → Stands t o e p place (enter e p place)) :
    ∃ passed, Runs t o (names.map (⟨path, dir, ·⟩)) w.entered passed (names.foldl (visit t o path dir enter) w).entered ∧
      (names.foldl (visit t o path dir enter) w).found = w.found ++ passed.filterMap (Item.sight? t o) := by
  induction names generalizing w with
  | nil => exact ⟨[], .done, by simp⟩
  | cons name names ih =>
    obtain ⟨first, hfirst, hfound⟩ :=
      runs_visit path dir name fun p place => henter w.entered p place (List.Subset.refl _)
    have hmono := hfirst.entered_mono
    obtain ⟨rest, hrest, hfound'⟩ := ih (fun e p place he => henter e p place (List.Subset.trans hmono he))
    refine ⟨first ++ rest, hfirst.append hrest, ?_⟩
    rw [List.foldl_cons, hfound', hfound]
    simp

/-- A walk within more levels than there are directories left to enter is a run. -/
theorem stands_within {t : FileTree} {o : Options} {depth : Nat} {e : Entered} {path : Path} {dir : Location}
    (hdir : t.isDirAt dir = true) (hdepth : (unentered t e).card < depth) :
    Stands t o e path dir (within t o depth e path dir) := by
  induction depth generalizing e path dir with
  | zero => omega
  | succ depth ih =>
    simp only [within]
    by_cases hmem : dir ∈ places e
    · rw [if_pos hmem]
      exact ⟨fun _ => rfl, fun hfresh => absurd hmem hfresh⟩
    · rw [if_neg hmem]
      refine ⟨fun hplace => absurd hplace hmem, fun _ => ?_⟩
      let w : Walk := { entered := (path, dir) :: e }
      have hbelow : ∀ e' p place, w.entered ⊆ e' → t.isDirAt place = true →
          Stands t o e' p place (within t o depth e' p place) := by
        intro e' p place he hplace
        have hless : (unentered t w.entered).card < (unentered t e).card := card_unentered_cons path hdir hmem
        have hcard : (unentered t e').card ≤ (unentered t w.entered).card := card_unentered_anti he
        exact ih hplace (by omega)
      obtain ⟨passed, hruns, hfound⟩ := runs_visits path dir (t.names dir) hbelow
      exact ⟨passed, hruns, by simpa [w] using hfound⟩

/-- The walk of a directory is a run over its entries. -/
theorem runs_ofDirectory {t : FileTree} (o : Options) (path : Path) {dir : Location} (hdir : t.isDirAt dir = true) :
    ∃ passed, Runs t o (items t path dir) [(path, dir)] passed (ofDirectory t o path dir).entered ∧
      (ofDirectory t o path dir).found = passed.filterMap (Item.sight? t o) := by
  have hcard := card_unentered_nil t
  have h : Stands t o [] path dir (ofDirectory t o path dir) := stands_within hdir (by omega)
  exact h.2 List.not_mem_nil

/-- What holds of the first directory, and passes from a directory to those that it leads into, holds of all that the
walk enters. -/
theorem invariant_ofDirectory {t : FileTree} {o : Options} {path : Path} {dir : Location} {P : Path → Location → Prop}
    (hdir : t.isDirAt dir = true) (start : P path dir)
    (step : ∀ i : Item, P i.path i.dir → i.name ∈ t.names i.dir → ∀ place, i.target? t o = some place → P i.full place)
    {p : Path} {d : Location} (h : (p, d) ∈ (ofDirectory t o path dir).entered) : P p d := by
  obtain ⟨passed, hruns, -⟩ := runs_ofDirectory o path hdir
  refine hruns.invariant step (.items t path dir) ?_ (p, d) h
  intro x hx
  rw [List.mem_singleton.1 hx]
  exact start

/-- Any larger number of levels gives the same walk. -/
theorem within_eq_ofDirectory {t : FileTree} {o : Options} {path : Path} {dir : Location} {depth : Nat}
    (hdir : t.isDirAt dir = true) (hdepth : t.directories.length + 1 < depth) :
    within t o depth [] path dir = ofDirectory t o path dir := by
  have hcard := card_unentered_nil t
  obtain ⟨passed, hruns, hfound⟩ := runs_ofDirectory o path hdir
  have h : Stands t o [] path dir (within t o depth [] path dir) := stands_within hdir (by omega)
  obtain ⟨passed', hruns', hfound'⟩ := h.2 List.not_mem_nil
  obtain ⟨rfl, hentered⟩ := hruns.unique hruns'
  exact Walk.ext (hfound'.trans hfound.symm) hentered.symm

end TestDiscovery.Walk
