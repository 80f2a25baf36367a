-- SUMMARY: The root of a repository is the nearest directory at or above a place with an entry `.git`.
import TestDiscovery.Proofs.Discovery.Arguments
import TestDiscovery.Proofs.Discovery.Failures

/-!
# Roots of repositories

The search for a root starts at the place that a path names and goes up. It stops at the first place that has an entry
`.git`, or whose entry `.git` cannot be examined, and what it finds there decides. So the root is the nearest repository,
unless a place that cannot be examined lies nearer.
-/

namespace TestDiscovery

namespace FileTree

variable {t : FileTree} {here place : Location} {pieces : List String}

/-! ## Places that can be reached -/

/-- What a strict reading leads to is a directory or a file. -/
def Stands (t : FileTree) (place : Location) : Prop :=
  t.get? place = some .dir ∨ ∃ bytes, t.get? place = some (.file bytes)

theorem stands_of_followWith {enter : Location → List String → Except Fault Location}
    (henter : ∀ here pieces place, pieces ≠ [] → enter here pieces = .ok place → t.Stands place)
    (h : t.followWith enter here pieces = .ok place) (hhere : pieces ≠ [] ∨ t.Stands here) : t.Stands place := by
  induction pieces generalizing here with
  | nil =>
    cases h
    exact hhere.resolve_left fun hnil => hnil rfl
  | cons piece rest ih =>
    simp only [followWith] at h
    split at h
    · cases h
    · next hdir =>
      have hdir : t.get? here = some .dir := by simpa [isDirAt] using hdir
      split at h
      · exact ih h (.inr (.inl hdir))
      · split at h
        · refine ih h (.inr (.inl ?_))
          cases here with
          | nil => exact hdir
          | cons name parent => exact (parent_isDir hdir).1
        · split at h
          · cases h
          · split at h
            · next target hget =>
              split at h
              · next reached hreached =>
                have hpieces : Path.pieces target ≠ [] := by simp [Path.pieces, Text.splitOn_ne_nil]
                exact ih h (.inr (henter _ _ reached hpieces hreached))
              · cases h
            · next node hlink hget =>
              refine ih h (.inr ?_)
              cases node with
              | link target => exact absurd rfl (hlink target)
              | dir => exact .inl hget
              | file bytes => exact .inr ⟨bytes, hget⟩
            · cases h

theorem stands_of_follow (hpieces : pieces ≠ []) (h : t.follow here pieces = .ok place) : t.Stands place := by
  unfold follow at h
  generalize t.entries.length + 1 = depth at h
  induction depth generalizing here pieces place with
  | zero => cases h
  | succ depth ih => exact stands_of_followWith (fun _ _ _ hnonempty hreached => ih hnonempty hreached) h (.inl hpieces)

theorem follow_of_entry_nameTooLong {name : String} (h : t.entry here name = .error .nameTooLong) :
    t.follow here [name] = .error .nameTooLong := by
  unfold entry at h
  cases hfollow : t.follow here [name] with
  | error fault => simpa [hfollow] using h
  | ok place => cases hget : t.get? place <;> simp [hfollow, hget] at h

/-! ## Places without links on the way -/

/-- No place on the way is a link, and no name on it is dropped in reading. -/
def Plain (t : FileTree) : Location → Prop
  | [] => True
  | name :: parent =>
    (¬ (name = "" ∨ name = ".") ∧ name ≠ ".." ∧ ∀ target, t.get? (name :: parent) ≠ some (.link target)) ∧ t.Plain parent

theorem Plain.of_suffix {upper : Location} (h : t.Plain place) (hsuffix : upper <:+ place) : t.Plain upper := by
  induction place with
  | nil => rwa [List.suffix_nil.1 hsuffix]
  | cons name parent ih =>
    rcases List.suffix_cons_iff.1 hsuffix with rfl | hsuffix
    · exact h
    · exact ih h.2 hsuffix

/-- A directory is a plain place. -/
theorem plain_of_isDirAt (h : t.isDirAt place = true) : t.Plain place := by
  induction place with
  | nil => trivial
  | cons name parent ih =>
    have hget : t.get? (name :: parent) = some .dir := by simpa [isDirAt] using h
    obtain ⟨hparent, hname⟩ := parent_isDir hget
    have hfile := FileName.of_isFileName hname
    refine ⟨⟨?_, hfile.ne_dots, by simp [hget]⟩, ih (by simp [isDirAt, hparent])⟩
    rintro (hempty | hdot)
    · exact hfile.ne_empty hempty
    · exact hfile.ne_dot hdot

theorem Ending.of_andThen {e : Ending} {go : Spot → Ending} {s : Spot} (h : e.andThen pieces go = .at s) :
    ∃ reached, e = .at reached ∧ go reached = .at s := by
  cases e with
  | «at» reached => exact ⟨reached, rfl, h⟩
  | inside link unread =>
    unfold Ending.andThen at h
    split at h
    · next heq => cases heq
    · cases h
    · cases h
    · cases h
  | endless => cases h

/-- A place that a lenient reading comes to is plain, if it starts at a plain one. -/
theorem plain_of_resolveWith {read : Spot → Spot → List String → Ending} {s reached : Spot}
    (hread : ∀ link start pieces reached, t.Plain start.place → read link start pieces = .at reached →
      t.Plain reached.place)
    (h : t.resolveWith read s pieces = .at reached) (hs : t.Plain s.place) : t.Plain reached.place := by
  induction pieces generalizing s with
  | nil =>
    cases h
    exact hs
  | cons piece rest ih =>
    unfold resolveWith at h
    split at h
    · exact ih h hs
    · next hkept =>
      split at h
      · exact ih h (hs.of_suffix (List.tail_suffix s.place))
      · next hdots =>
        split at h
        · next target hget =>
          obtain ⟨behind, hbehind, hrest⟩ := Ending.of_andThen h
          refine ih hrest (hread _ _ _ behind ?_ hbehind)
          split
          · trivial
          · exact hs
        · next hlink => exact ih h ⟨⟨hkept, hdots, hlink⟩, hs⟩

theorem plain_of_resolve {s reached : Spot} (h : t.resolve s pieces = .at reached) (hs : t.Plain s.place) :
    t.Plain reached.place := by
  unfold resolve at h
  generalize (t.entries.length + 1) * (s.place.length + 2) = depth at h
  generalize [] = around at h
  induction depth generalizing around s pieces reached with
  | zero => cases h
  | succ depth ih =>
    refine plain_of_resolveWith (fun link start pieces behind hstart hbehind => ?_) h hs
    split at hbehind
    · cases hbehind
    · exact ih hstart (link :: around) hbehind

/-- The names of a plain place lead to it. -/
theorem Plain.resolveWith {read : Spot → Spot → List String → Ending} {s : Spot}
    (h : t.Plain (pieces.reverse ++ s.place)) : (t.resolveWith read s pieces).IsAt (pieces.reverse ++ s.place) := by
  induction pieces generalizing s with
  | nil => exact ⟨s, rfl, rfl⟩
  | cons piece rest ih =>
    have hsame : (piece :: rest).reverse ++ s.place = rest.reverse ++ (s.child piece).place := by simp [Spot.child]
    rw [hsame] at h ⊢
    obtain ⟨⟨hkept, hdots, hlink⟩, -⟩ := h.of_suffix (List.suffix_append rest.reverse (piece :: s.place))
    rw [FileTree.resolveWith, if_neg hkept, if_neg hdots]
    split
    · next target hget => exact absurd hget (hlink target)
    · exact ih h

/-- A plain place is named by its own path. -/
theorem Plain.resolve (h : t.Plain place) : (t.resolve .root place.reverse).IsAt place := by
  have hplace : t.Plain (place.reverse.reverse ++ Spot.root.place) := by simpa [Spot.root] using h
  have hdepth : ∃ depth, (t.entries.length + 1) * (Spot.root.place.length + 2) = depth + 1 :=
    Nat.exists_eq_succ_of_ne_zero (by simp)
  obtain ⟨depth, hdepth⟩ := hdepth
  rw [FileTree.resolve, hdepth, FileTree.resolveDepth]
  simpa [Spot.root] using hplace.resolveWith

end FileTree

namespace FileSystem

/-! ## The entry that makes a repository -/

/-- The path of the entry `.git` at a place. -/
def mark (r : Location) : Path := Location.path (".git" :: r)

/-- The entry `.git` at a place is there: it is a directory or a file, or a link that leads to one. -/
def IsRepository (fs : FileSystem) (r : Location) : Prop :=
  ∃ place, fs.locate (mark r) = .ok place ∧ fs.tree.Stands place

/-- The way to the entry `.git` at a place leads through a name that no file can have. -/
def Unexaminable (fs : FileSystem) (r : Location) : Prop :=
  (mark r).hasNul = false ∧ fs.locate (mark r) = .error .nameTooLong

/-- Among a place and those above it, the repository that lies nearest to the place. -/
structure NearestRepository (fs : FileSystem) (place r : Location) : Prop where
  above : r <:+ place
  marked : fs.IsRepository r
  nearest : ∀ q, q <:+ place → fs.IsRepository q → q <:+ r

/-- The entry `.git` at a place is not there, and that can be told. -/
def Barren (fs : FileSystem) (r : Location) : Prop := ¬ fs.IsRepository r ∧ ¬ fs.Unexaminable r

variable {fs : FileSystem} {start : Path} {place r q : Location}

/-- Where the entry `.git` can be examined, it is there or it is not. -/
theorem IsRepository.examinable (h : fs.IsRepository r) : ¬ fs.Unexaminable r := by
  rintro ⟨-, hlong⟩
  obtain ⟨place, hlocate, -⟩ := h
  cases hlocate.symm.trans hlong

theorem IsRepository.hasPath (h : fs.IsRepository r) : fs.hasPath (mark r) = .ok true := by
  obtain ⟨place, hlocate, -⟩ := h
  exact hasPath_of_locate hlocate

theorem Unexaminable.hasPath (h : fs.Unexaminable r) :
    fs.hasPath (mark r) = .error (.inaccessible ⟨.nameTooLong, mark r⟩) := by
  unfold FileSystem.hasPath pathExists
  simp [h.1, h.2, Except.mapError]

theorem isRepository_of_locate (h : fs.locate (mark r) = .ok place) : fs.IsRepository r :=
  ⟨place, h, FileTree.stands_of_follow (by simp [mark, Location.path]) h⟩

theorem Barren.hasPath (h : fs.Barren r) : fs.hasPath (mark r) = .ok false := by
  obtain ⟨hunmarked, hexaminable⟩ := h
  unfold FileSystem.hasPath pathExists
  cases hnul : (mark r).hasNul with
  | true => rfl
  | false =>
    cases hlocate : fs.locate (mark r) with
    | ok place => exact absurd (isRepository_of_locate hlocate) hunmarked
    | error fault =>
      cases fault with
      | nameTooLong => exact absurd ⟨hnul, hlocate⟩ hexaminable
      | _ => rfl

/-! ## Going up -/

/-- The first place from below where the entry `.git` is there or cannot be examined. -/
structure DecidesAt (fs : FileSystem) (place r : Location) : Prop where
  above : r <:+ place
  fertile : ¬ fs.Barren r
  barren : ∀ q, q <:+ place → r <:+ q → q ≠ r → fs.Barren q

/-- The search stops at some place, or goes past all. -/
theorem exists_decidesAt (fs : FileSystem) (place : Location) :
    (∃ r, fs.DecidesAt place r) ∨ ∀ q, q <:+ place → fs.Barren q := by
  induction place with
  | nil =>
    by_cases hroot : fs.Barren []
    · refine .inr fun q hq => ?_
      rwa [List.suffix_nil.1 hq]
    · refine .inl ⟨[], List.suffix_rfl, hroot, fun q hq _ hne => ?_⟩
      exact absurd (List.suffix_nil.1 hq) hne
  | cons name parent ih =>
    by_cases hhere : fs.Barren (name :: parent)
    · rcases ih with ⟨r, habove, hfertile, hbarren⟩ | hall
      · refine .inl ⟨r, habove.trans (List.suffix_cons name parent), hfertile, fun q hq hr hne => ?_⟩
        rcases List.suffix_cons_iff.1 hq with rfl | hq
        · exact hhere
        · exact hbarren q hq hr hne
      · refine .inr fun q hq => ?_
        rcases List.suffix_cons_iff.1 hq with rfl | hq
        · exact hhere
        · exact hall q hq
    · refine .inl ⟨name :: parent, List.suffix_rfl, hhere, fun q hq hr hne => ?_⟩
      exact absurd (hq.eq_of_length_le hr.length_le) hne

/-- Past places without the entry the search goes on. -/
theorem nearestRepository_of_barren (h : ∀ q, q <:+ place → fs.Barren q) : fs.nearestRepository place = .ok none := by
  induction place with
  | nil =>
    have hpath := (h [] List.suffix_rfl).hasPath
    rw [mark] at hpath
    simp [nearestRepository, hpath, bind, Except.bind, pure, Except.pure]
  | cons name parent ih =>
    have hpath := (h _ List.suffix_rfl).hasPath
    rw [mark] at hpath
    simp only [nearestRepository, hpath, bind, Except.bind, Bool.false_eq_true, if_false]
    exact ih fun q hq => h q (hq.trans (List.suffix_cons name parent))

/-- What the search finds where it stops decides. -/
theorem DecidesAt.nearestRepository (h : fs.DecidesAt place r) :
    fs.nearestRepository place = (fs.hasPath (mark r)).map fun _ => some r := by
  have hstops (r : Location) (hfertile : ¬ fs.Barren r) :
      fs.hasPath (mark r) = .ok true ∨ ∃ e, fs.hasPath (mark r) = .error e := by
    by_cases hmarked : fs.IsRepository r
    · exact .inl hmarked.hasPath
    · exact .inr ⟨_, (not_not.1 fun hexaminable => hfertile ⟨hmarked, hexaminable⟩ : fs.Unexaminable r).hasPath⟩
  induction place with
  | nil =>
    obtain rfl := List.suffix_nil.1 h.above
    rw [FileSystem.nearestRepository, ← mark]
    rcases hstops [] h.fertile with hpath | ⟨e, hpath⟩ <;> rw [hpath] <;> rfl
  | cons name parent ih =>
    rw [FileSystem.nearestRepository, ← mark]
    rcases List.suffix_cons_iff.1 h.above with rfl | habove
    · rcases hstops _ h.fertile with hpath | ⟨e, hpath⟩ <;> rw [hpath] <;> rfl
    · have hne : name :: parent ≠ r := by
        rintro rfl
        exact absurd habove.length_le (by simp)
      rw [(h.barren _ List.suffix_rfl h.above hne).hasPath]
      exact ih ⟨habove, h.fertile, fun q hq => h.barren q (hq.trans (List.suffix_cons name parent))⟩

/-- The search gives a root exactly if it is the nearest repository and all from the place up to it can be examined. -/
theorem nearestRepository_eq_some_iff :
    fs.nearestRepository place = .ok (some r) ↔
      fs.NearestRepository place r ∧ ∀ q, q <:+ place → r <:+ q → ¬ fs.Unexaminable q := by
  constructor
  · intro h
    rcases fs.exists_decidesAt place with ⟨r', hdecides⟩ | hall
    · have hmarked : fs.IsRepository r' ∧ r' = r := by
        rw [hdecides.nearestRepository] at h
        by_cases hmarked : fs.IsRepository r'
        · rw [hmarked.hasPath] at h
          exact ⟨hmarked, Option.some.inj (Except.ok.inj h)⟩
        · have hlong : fs.Unexaminable r' := not_not.1 fun hexaminable => hdecides.fertile ⟨hmarked, hexaminable⟩
          rw [hlong.hasPath] at h
          cases h
      obtain ⟨hmarked, rfl⟩ := hmarked
      have hbetween : ∀ q, q <:+ place → r' <:+ q → q = r' ∨ fs.Barren q := fun q hq hr =>
        (eq_or_ne q r').imp_right (hdecides.barren q hq hr)
      refine ⟨⟨hdecides.above, hmarked, fun q hq hmark => ?_⟩, fun q hq hr => ?_⟩
      · rcases List.suffix_or_suffix_of_suffix hq hdecides.above with hsuffix | hsuffix
        · exact hsuffix
        · rcases hbetween q hq hsuffix with rfl | hbarren
          · exact List.suffix_rfl
          · exact absurd hmark hbarren.1
      · rcases hbetween q hq hr with rfl | hbarren
        · exact hmarked.examinable
        · exact hbarren.2
    · rw [nearestRepository_of_barren hall] at h
      cases h
  · rintro ⟨⟨habove, hmarked, hnearest⟩, hclear⟩
    have hdecides : fs.DecidesAt place r := by
      refine ⟨habove, fun hbarren => hbarren.1 hmarked, fun q hq hr hne => ⟨fun hmark => ?_, hclear q hq hr⟩⟩
      exact hne ((hnearest q hq hmark).eq_of_length_le hr.length_le)
    rw [hdecides.nearestRepository, hmarked.hasPath]
    rfl

/-- The search gives none exactly if there is none, and all up to the top can be examined. -/
theorem nearestRepository_eq_none_iff :
    fs.nearestRepository place = .ok none ↔ ∀ q, q <:+ place → ¬ fs.IsRepository q ∧ ¬ fs.Unexaminable q := by
  constructor
  · intro h
    rcases fs.exists_decidesAt place with ⟨r, hdecides⟩ | hall
    · rw [hdecides.nearestRepository] at h
      cases hpath : fs.hasPath (mark r) <;> simp [hpath, Except.map] at h
    · exact hall
  · exact nearestRepository_of_barren

/-- The search fails exactly at a place that cannot be examined, if there is no repository and no other such place
below it. -/
theorem nearestRepository_eq_error_iff {e : Failure} :
    fs.nearestRepository place = .error e ↔
      ∃ q, q <:+ place ∧ fs.Unexaminable q ∧ e = .inaccessible ⟨.nameTooLong, mark q⟩ ∧
        ∀ p, p <:+ place → q <:+ p → p ≠ q → ¬ fs.IsRepository p ∧ ¬ fs.Unexaminable p := by
  constructor
  · intro h
    rcases fs.exists_decidesAt place with ⟨r, hdecides⟩ | hall
    · rw [hdecides.nearestRepository] at h
      by_cases hmarked : fs.IsRepository r
      · rw [hmarked.hasPath] at h
        cases h
      · have hlong : fs.Unexaminable r := not_not.1 fun hexaminable => hdecides.fertile ⟨hmarked, hexaminable⟩
        rw [hlong.hasPath] at h
        cases h
        exact ⟨r, hdecides.above, hlong, rfl, hdecides.barren⟩
    · rw [nearestRepository_of_barren hall] at h
      cases h
  · rintro ⟨q, habove, hlong, rfl, hbarren⟩
    have hdecides : fs.DecidesAt place q := ⟨habove, fun h => h.2 hlong, hbarren⟩
    rw [hdecides.nearestRepository, hlong.hasPath]
    rfl

/-! ## The root for a path -/

theorem findRoot_of_placeOf (h : fs.placeOf start = .ok place) :
    fs.findRoot start = (fs.nearestRepository place).bind fun
      | some root => .ok root
      | none => .error (.noRepository start) := by
  unfold findRoot
  rw [h]
  rfl

theorem findRoot_of_placeOf_error {e : Failure} (h : fs.placeOf start = .error e) : fs.findRoot start = .error e := by
  unfold findRoot
  rw [h]
  rfl

theorem findRoot_eq_ok_iff :
    fs.findRoot start = .ok r ↔ ∃ place, fs.placeOf start = .ok place ∧ fs.NearestRepository place r ∧
      ∀ q, q <:+ place → r <:+ q → ¬ fs.Unexaminable q := by
  cases hplace : fs.placeOf start with
  | error e => simp [findRoot_of_placeOf_error hplace]
  | ok place =>
    simp only [Except.ok.injEq, exists_eq_left', findRoot_of_placeOf hplace, ← nearestRepository_eq_some_iff]
    cases fs.nearestRepository place with
    | error e => simp [Except.bind]
    | ok found => cases found <;> simp [Except.bind]

/-- The failures of the search say where it failed, and a missing repository is one of them. -/
theorem findRoot_eq_error_iff {e : Failure} :
    fs.findRoot start = .error e ↔ fs.placeOf start = .error e ∨ ∃ place, fs.placeOf start = .ok place ∧
      (e = .noRepository start ∧ fs.nearestRepository place = .ok none ∨ fs.nearestRepository place = .error e) := by
  cases hplace : fs.placeOf start with
  | error e' => simp [findRoot_of_placeOf_error hplace]
  | ok place =>
    simp only [Except.ok.injEq, exists_eq_left', findRoot_of_placeOf hplace, reduceCtorEq, false_or]
    cases fs.nearestRepository place with
    | error e' => simp [Except.bind]
    | ok found => cases found <;> simp [Except.bind, eq_comm]

/-- No repository is reported exactly where there is none at or above the place, and all can be examined. -/
theorem findRoot_eq_noRepository_iff {given : Path} :
    fs.findRoot start = .error (.noRepository given) ↔ given = start ∧ ∃ place, fs.placeOf start = .ok place ∧
      ∀ q, q <:+ place → ¬ fs.IsRepository q ∧ ¬ fs.Unexaminable q := by
  have hplaceOf : fs.placeOf start ≠ .error (.noRepository given) := fun h => placeOf_failsOnly.of_error h
  have hnearest (place : Location) : fs.nearestRepository place ≠ .error (.noRepository given) :=
    fun h => (nearestRepository_failsOnly place).of_error h
  rw [findRoot_eq_error_iff]
  simp only [hplaceOf, hnearest, false_or, or_false, Failure.noRepository.injEq, nearestRepository_eq_none_iff]
  constructor
  · rintro ⟨place, hplace, rfl, hall⟩
    exact ⟨rfl, place, hplace, hall⟩
  · rintro ⟨rfl, place, hplace, hall⟩
    exact ⟨place, hplace, rfl, hall⟩

/-- A path that names its place without a link inside itself, from a directory of the tree. -/
structure Straight (fs : FileSystem) (p : Path) : Prop where
  starts : p.isAbsolute = true ∨ fs.tree.isDirAt fs.workingDir = true
  ends : ∃ s, fs.tree.resolve (fs.spot p) p.names = .at s

/-- The place that such a path names is plain. -/
theorem Straight.plain (h : fs.Straight start) (hplace : fs.placeOf start = .ok place) : fs.tree.Plain place := by
  have hplain : fs.tree.Plain (fs.spot start).place := by
    unfold spot
    split
    · trivial
    · next hrelative => exact FileTree.plain_of_isDirAt (h.starts.resolve_left hrelative)
  obtain ⟨named, hnamed⟩ := h.ends
  have hresolve : fs.resolve start = .ok named.place := by
    unfold FileSystem.resolve
    rw [hnamed]
  unfold placeOf at hplace
  split at hplace
  · cases hplace
  · rw [hresolve] at hplace
    cases hplace
    exact FileTree.plain_of_resolve hnamed hplain

/-- The path of a repository leads to a directory, and to itself if it is plain. -/
theorem IsRepository.directoryAt (h : fs.IsRepository r) :
    ∃ d, fs.directoryAt r.path = .ok d ∧ (fs.tree.Plain r → d = r) := by
  obtain ⟨place, hlocate, -⟩ := h
  have hfollow : fs.tree.follow [] (r.reverse ++ [".git"]) = .ok place := by
    have hnames : (mark r).names = r.reverse ++ [".git"] := List.reverse_cons
    rw [← hnames]
    exact hlocate
  rw [FileTree.follow_append] at hfollow
  cases hreached : fs.tree.follow [] r.reverse with
  | error e => simp [hreached, Except.bind] at hfollow
  | ok d =>
    have hpath : fs.locate r.path = .ok d := hreached
    have hdir : fs.tree.isDirAt d = true := by
      simp only [hreached, Except.bind] at hfollow
      by_contra hdir
      rw [FileTree.follow, FileTree.followDepth] at hfollow
      simp [FileTree.followWith, Bool.eq_false_iff.2 hdir] at hfollow
    refine ⟨d, directoryAt_eq_ok_iff.2 ⟨hasNul_of_locate hpath, hpath, hdir⟩, fun hplain => ?_⟩
    obtain ⟨s, hs, rfl⟩ := FileTree.resolve_of_follow (s := .root) hreached
    obtain ⟨s', hs', rfl⟩ := hplain.resolve
    rw [FileTree.Ending.at.inj (hs.symm.trans hs')]

/-- A root that was found is a directory, by its own path if it was found without a link inside itself. -/
theorem directoryAt_of_findRoot (h : fs.findRoot start = .ok r) :
    ∃ d, fs.directoryAt r.path = .ok d ∧ (fs.Straight start → d = r) := by
  obtain ⟨place, hplace, hnearest, -⟩ := findRoot_eq_ok_iff.1 h
  obtain ⟨d, hd, hplain⟩ := hnearest.marked.directoryAt
  exact ⟨d, hd, fun hstraight => hplain ((hstraight.plain hplace).of_suffix hnearest.above)⟩

end FileSystem

end TestDiscovery
