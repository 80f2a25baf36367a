-- SUMMARY: Discovery gives the same entities by whatever path it comes to the root.
import TestDiscovery.Proofs.Discovery.Aliases

/-!
# Paths of a root

Many paths lead to one directory: relative and absolute ones, with double dots, and through links. Walks that start from
it under two paths go through the same entries in the same order, since what an entry leads to hangs on the directory that
really holds it. Files below the root are then seen from there in the same way, so discovery gives the same entities.
-/

namespace TestDiscovery

namespace Walk

variable {t : FileTree} {o : Options} {i j : Item} {a b passed passed' : List Item} {e e' f : Entered}

/-! ## Walks side by side -/

/-- Where an entry leads hangs on its directory and its name. -/
theorem Item.target?_congr (h : j.key = i.key) : j.target? t o = i.target? t o := by
  obtain ⟨hdir, hname⟩ := Prod.mk.inj h
  simp [target?, hdir, hname]

theorem map_key_items (path path' : Path) (dir : Location) :
    (items t path' dir).map Item.key = (items t path dir).map Item.key := by
  simp [items, Item.key]

/-- A run over the same entries under other paths passes the same entries and enters the same directories. -/
theorem Runs.alongside (h : Runs t o a e passed e') (hkeys : b.map Item.key = a.map Item.key)
    (hplaces : places f = places e) :
    ∃ passed' f', Runs t o b f passed' f' ∧ passed'.map Item.key = passed.map Item.key ∧ places f' = places e' := by
  induction h generalizing b f with
  | done =>
    obtain rfl := List.map_eq_nil_iff.1 hkeys
    exact ⟨[], f, .done, rfl, hplaces⟩
  | @enter i rest passed e e' place target fresh below ih =>
    obtain ⟨j, rest', rfl, hkey, hrest⟩ := List.map_eq_cons_iff.1 hkeys
    have hbelow : (items t j.full place ++ rest').map Item.key = (items t i.full place ++ rest).map Item.key := by
      simp [hrest, map_key_items i.full j.full place]
    obtain ⟨passed', f', hruns, hpassed, hentered⟩ := ih (f := (j.full, place) :: f) hbelow (by simpa using hplaces)
    refine ⟨passed', f', .enter ?_ ?_ hruns, hpassed, hentered⟩
    · rw [Item.target?_congr hkey, target]
    · rwa [hplaces]
  | @pass i rest passed e e' stale next ih =>
    obtain ⟨j, rest', rfl, hkey, hrest⟩ := List.map_eq_cons_iff.1 hkeys
    obtain ⟨passed', f', hruns, hpassed, hentered⟩ := ih hrest hplaces
    refine ⟨j :: passed', f', .pass ?_ hruns, by simp [hkey, hpassed], hentered⟩
    rw [hplaces, Item.target?_congr hkey]
    exact stale

/-- Walks of one directory under two paths pass the same entries. -/
theorem runs_ofDirectory_alongside (o : Options) (path path' : Path) {dir : Location} (hdir : t.isDirAt dir = true) :
    ∃ passed passed',
      Runs t o (items t path dir) [(path, dir)] passed (ofDirectory t o path dir).entered ∧
      Runs t o (items t path' dir) [(path', dir)] passed' (ofDirectory t o path' dir).entered ∧
      (ofDirectory t o path dir).found = passed.filterMap (Item.sight? t o) ∧
      (ofDirectory t o path' dir).found = passed'.filterMap (Item.sight? t o) ∧
      List.Forall₂ (fun i j => Item.key i = Item.key j) passed passed' := by
  obtain ⟨passed, hruns, hfound⟩ := runs_ofDirectory o path hdir
  obtain ⟨passed', hruns', hfound'⟩ := runs_ofDirectory o path' hdir
  obtain ⟨again, entered, hagain, hkeys, -⟩ :=
    hruns.alongside (f := [(path', dir)]) (map_key_items path path' dir) rfl
  obtain ⟨rfl, -⟩ := hruns'.unique hagain
  refine ⟨passed, passed', hruns, hruns', hfound, hfound', ?_⟩
  have hequal : List.Forall₂ Eq (passed.map Item.key) (passed'.map Item.key) := by simp [hkeys]
  exact List.forall₂_map_left_iff.1 (List.forall₂_map_right_iff.1 hequal)

end Walk

namespace FileSystem

open Walk

variable {fs : FileSystem} {o : Options} {root root' f f' : Path} {top : Location}

/-! ## One file under two paths -/

/-- Two paths of sources that lead to the same file. -/
structure SameFile (fs : FileSystem) (o : Options) (f f' : Path) : Prop where
  fits : isSource o f = true ∧ isSource o f' = true
  clean : f.hasNul = false ∧ f'.hasNul = false
  place : ∃ place bytes, fs.locate f = .ok place ∧ fs.locate f' = .ok place ∧ fs.tree.get? place = some (.file bytes)

/-- What two walks find at the same entry: one file under two paths, or the same fault under two paths. -/
inductive SameSight (fs : FileSystem) (o : Options) : Except FileError Path → Except FileError Path → Prop
  | file {f f' : Path} (same : fs.SameFile o f f') : SameSight fs o (.ok f) (.ok f')
  | fault (p p' : Path) : SameSight fs o (.error ⟨.nameTooLong, p⟩) (.error ⟨.nameTooLong, p'⟩)

namespace SameFile

/-- The file has one text. -/
theorem readSource (h : fs.SameFile o f f') : fs.readSource f' = fs.readSource f := by
  obtain ⟨place, bytes, hlocate, hlocate', hget⟩ := h.place
  rw [readSource_of_locate h.clean.1 hlocate hget, readSource_of_locate h.clean.2 hlocate' hget]

/-- Below a root, the file is seen from there by the same path. -/
theorem relativePath (h : fs.SameFile o f f') (hroot : fs.placeOf root = .ok top) (hroot' : fs.placeOf root' = .ok top)
    (hnul : root.hasNul = false) (hnul' : root'.hasNul = false) (hbelow : fs.LiesBelow f root) :
    ∃ rel, fs.relativePath f root = .ok rel ∧ fs.relativePath f' root' = .ok rel := by
  obtain ⟨place, bytes, hlocate, hlocate', -⟩ := h.place
  have hplace : fs.placeOf f = .ok place := placeOf_of_locate hlocate h.clean.1
  have hplace' : fs.placeOf f' = .ok place := placeOf_of_locate hlocate' h.clean.2
  obtain ⟨reached, above, hreached, habove, hsuffix⟩ := hbelow
  cases hreached.symm.trans hplace
  cases habove.symm.trans hroot
  obtain ⟨below, rfl⟩ := hsuffix
  exact ⟨_, relativePath_of_below hplace hroot h.clean.1 hnul (namesBelow?_append below top),
    relativePath_of_below hplace' hroot' h.clean.2 hnul' (namesBelow?_append below top)⟩

/-- Seen by one path, the file gives the same entities. -/
theorem entities_testsIn (h : fs.SameFile o f f') {rel : String} (hrel : fs.relativePath f root = .ok rel)
    (hrel' : fs.relativePath f' root' = .ok rel) :
    (fs.testsIn o root' f').entities = (fs.testsIn o root f).entities := by
  have hread := h.readSource
  cases htext : fs.readSource f with
  | error e =>
    rw [testsIn_of_discoverSource (discoverSource_of_unreadable h.fits.1 htext),
      testsIn_of_discoverSource (discoverSource_of_unreadable h.fits.2 (hread.trans htext))]
  | ok text =>
    rw [testsIn_of_discoverSource (discoverSource_of_text h.fits.1 htext hrel),
      testsIn_of_discoverSource (discoverSource_of_text h.fits.2 (hread.trans htext) hrel')]

end SameFile

/-! ## What two walks find -/

/-- An entry shows the same to a walk under either path. -/
theorem sameSight_of_key {i j : Item} (h : fs.directoryAt root = .ok top) (h' : fs.directoryAt root' = .ok top)
    (hi : (i.path, i.dir) ∈ (ofDirectory fs.tree o root top).entered ∧ i.name ∈ fs.tree.names i.dir)
    (hj : (j.path, j.dir) ∈ (ofDirectory fs.tree o root' top).entered ∧ j.name ∈ fs.tree.names j.dir)
    (hkey : i.key = j.key) :
    Option.Rel (SameSight fs o) (i.sight? fs.tree o) (j.sight? fs.tree o) := by
  obtain ⟨p, d, name⟩ := i
  obtain ⟨p', d', name'⟩ := j
  obtain ⟨rfl, rfl⟩ := Prod.mk.inj hkey
  cases hsight : Item.sight? fs.tree o ⟨p, d, name⟩ with
  | none =>
    cases hsight' : Item.sight? fs.tree o ⟨p', d, name⟩ with
    | none => exact .none
    | some sight =>
      cases sight with
      | ok g =>
        obtain ⟨-, hleads, hsuffix⟩ := Item.sight?_eq_ok_iff.1 hsight'
        cases hsight.symm.trans (Item.sight?_eq_ok_iff.2 ⟨rfl, hleads, hsuffix⟩)
      | error e =>
        obtain ⟨-, hlong⟩ := Item.sight?_eq_error_iff.1 hsight'
        cases hsight.symm.trans (Item.sight?_eq_error_iff.2 ⟨rfl, hlong⟩)
  | some sight =>
    cases sight with
    | ok g =>
      obtain ⟨rfl, hleads, hsuffix⟩ := Item.sight?_eq_ok_iff.1 hsight
      rw [Item.sight?_eq_ok_iff (i := ⟨p', d, name⟩).2 ⟨rfl, hleads, hsuffix⟩]
      obtain ⟨place, bytes, hentry⟩ := hleads
      obtain ⟨hfollow, hget⟩ := FileTree.follow_of_entry hentry
      have hlisted := FileTree.mem_names_iff.1 hi.2
      refine .some (.file ⟨?_, ?_, place, bytes, ?_, ?_, hget⟩)
      · simpa [isSource, Item.full] using hsuffix
      · exact ⟨(placeOf_of_entered h hi.1 hlisted hentry).2, (placeOf_of_entered h' hj.1 hlisted hentry).2⟩
      · exact (locate_child name (locate_of_entered h hi.1).1).trans hfollow
      · exact (locate_child name (locate_of_entered h' hj.1).1).trans hfollow
    | error e =>
      obtain ⟨rfl, hlong⟩ := Item.sight?_eq_error_iff.1 hsight
      rw [Item.sight?_eq_error_iff (i := ⟨p', d, name⟩).2 ⟨rfl, hlong⟩]
      exact .some (.fault _ _)

/-- Walks from a root under two paths find the same, one by one. -/
theorem forall₂_found (o : Options) (h : fs.directoryAt root = .ok top) (h' : fs.directoryAt root' = .ok top) :
    List.Forall₂ (SameSight fs o) (ofDirectory fs.tree o root top).found (ofDirectory fs.tree o root' top).found := by
  obtain ⟨passed, passed', hruns, hruns', hfound, hfound', hkeys⟩ :=
    runs_ofDirectory_alongside o root root' (directoryAt_eq_ok_iff.1 h).2.2
  have hlisted := hruns.listed_passed (.items fs.tree root top)
  have hlisted' := hruns'.listed_passed (.items fs.tree root' top)
  obtain ⟨hlength, hzip⟩ := List.forall₂_iff_zip.1 hkeys
  have hpairs : List.Forall₂ (fun i j => i ∈ passed ∧ j ∈ passed' ∧ i.key = j.key) passed passed' :=
    List.forall₂_iff_zip.2 ⟨hlength, fun hmem => ⟨(List.of_mem_zip hmem).1, (List.of_mem_zip hmem).2, hzip hmem⟩⟩
  rw [hfound, hfound']
  refine List.rel_filterMap ?_ hpairs
  rintro i j ⟨hi, hj, hkey⟩
  exact sameSight_of_key h h' (hlisted i hi) (hlisted' j hj) hkey

/-- They yield the same files, and then meet the same fault or none. -/
theorem forall₂_yielded {rs rs' : List (Except FileError Path)} (h : List.Forall₂ (SameSight fs o) rs rs') :
    List.Forall₂ (SameFile fs o) (yielded rs).1 (yielded rs').1 ∧
      ((yielded rs).2 = none ∧ (yielded rs').2 = none ∨
        ∃ p p', (yielded rs).2 = some ⟨.nameTooLong, p⟩ ∧ (yielded rs').2 = some ⟨.nameTooLong, p'⟩) := by
  induction h with
  | nil => exact ⟨.nil, .inl ⟨rfl, rfl⟩⟩
  | cons hsight _ ih =>
    cases hsight with
    | file same => exact ⟨.cons same ih.1, ih.2⟩
    | fault p p' => exact ⟨.nil, .inr ⟨p, p', rfl, rfl⟩⟩

/-- Files in pairs give the same together, if each pair does. -/
theorem flatMap_eq_of_forall₂ {files files' : List Path} {g g' : Path → List Entity}
    (h : List.Forall₂ (SameFile fs o) files files') (heach : ∀ f f', f ∈ files → fs.SameFile o f f' → g f = g' f') :
    files.flatMap g = files'.flatMap g' := by
  induction h with
  | nil => rfl
  | cons same _ ih =>
    rw [List.flatMap_cons, List.flatMap_cons, heach _ _ List.mem_cons_self same,
      ih fun f f' hf => heach f f' (List.mem_cons_of_mem _ hf)]

/-- What discovery gives in a directory, up to a fault of the walk. -/
theorem discoverTests_of_directoryAt (o : Options) (h : fs.directoryAt root = .ok top) :
    ∃ found : Discovery,
      fs.discoverTests (some root) (some o) = (unlessFault found (yielded (ofDirectory fs.tree o root top).found).2).mapError
        (fun e => ⟨.inaccessible e, found.events⟩) ∧
      found.entities =
        (yielded (ofDirectory fs.tree o root top).found).1.flatMap fun f => (fs.testsIn o root f).entities := by
  obtain ⟨found, hentities, -, hfound⟩ := discoverFound_eq_append {} fun f hf =>
    have ⟨here, hhere, _⟩ := discoverSource_of_ok_mem_found (o := o) h hf
    ⟨here, hhere⟩
  exact ⟨found, (discoverTests_of_walk (walk_of_directoryAt o h)).trans hfound, by simpa using hentities⟩

/-- By two paths that lead to one directory, discovery gives the same entities, if the files that the walk yields lie below
the directory; or else it fails both times, at an entry that leads through a name that no file can have. -/
theorem discoverTests_of_same_root {d d' : Location} (h : fs.directoryAt root = .ok d) (h' : fs.directoryAt root' = .ok d')
    (hsame : fs.placeOf root = fs.placeOf root')
    (hbelow : ∀ w, fs.walk o root = .ok w → ∀ f ∈ (yielded w.found).1, fs.LiesBelow f root) :
    (∃ found found', fs.discoverTests (some root) (some o) = .ok found ∧
      fs.discoverTests (some root') (some o) = .ok found' ∧ found.entities = found'.entities) ∨
    ∃ p p' events events',
      fs.discoverTests (some root) (some o) = .error ⟨.inaccessible ⟨.nameTooLong, p⟩, events⟩ ∧
      fs.discoverTests (some root') (some o) = .error ⟨.inaccessible ⟨.nameTooLong, p'⟩, events'⟩ := by
  obtain ⟨hnul, hlocate, -⟩ := directoryAt_eq_ok_iff.1 h
  obtain ⟨hnul', hlocate', -⟩ := directoryAt_eq_ok_iff.1 h'
  have hroot : fs.placeOf root = .ok d := placeOf_of_locate hlocate hnul
  have hroot' : fs.placeOf root' = .ok d' := placeOf_of_locate hlocate' hnul'
  obtain rfl : d = d' := Except.ok.inj (hroot.symm.trans (hsame.trans hroot'))
  obtain ⟨found, hfound, hentities⟩ := discoverTests_of_directoryAt o h
  obtain ⟨found', hfound', hentities'⟩ := discoverTests_of_directoryAt o h'
  obtain ⟨hfiles, hfaults⟩ := forall₂_yielded (forall₂_found o h h')
  rcases hfaults with ⟨hnone, hnone'⟩ | ⟨p, p', hfault, hfault'⟩
  · left
    rw [hnone] at hfound
    rw [hnone'] at hfound'
    refine ⟨found, found', hfound, hfound', ?_⟩
    rw [hentities, hentities']
    refine flatMap_eq_of_forall₂ hfiles fun f f' hf same => ?_
    obtain ⟨rel, hrel, hrel'⟩ := same.relativePath hroot hroot' hnul hnul' (hbelow _ (walk_of_directoryAt o h) f hf)
    exact (same.entities_testsIn hrel hrel').symm
  · right
    rw [hfault] at hfound
    rw [hfault'] at hfound'
    exact ⟨p, p', found.events, found'.events, hfound, hfound'⟩

/-! ### Through a link, and past a missing directory -/

theorem discoverTests_of_same_root_selfLinked :
    ∃ found found', selfLinked.discoverTests (some ⟨.root, []⟩) (some {}) = .ok found ∧
      selfLinked.discoverTests (some ⟨.here, ["b", "..", "b"]⟩) (some {}) = .ok found' ∧
      found.entities = found'.entities := by
  have hroot : selfLinked.directoryAt ⟨.root, []⟩ = .ok [] := rfl
  have hlinked : selfLinked.directoryAt ⟨.here, ["b", "..", "b"]⟩ = .ok [] := rfl
  have hbelow : ∀ w, selfLinked.walk {} ⟨.root, []⟩ = .ok w →
      ∀ f ∈ (yielded w.found).1, selfLinked.LiesBelow f ⟨.root, []⟩ := by
    intro w hw f hf
    cases hw.symm.trans (walk_of_directoryAt {} hroot)
    obtain ⟨place, bytes, hplace, -⟩ := exists_place_of_mem_yielded hroot hf
    exact ⟨place, [], hplace, rfl, List.nil_suffix⟩
  have hnames : selfLinked.tree.names [] = ["a.p", "b"] :=
    List.mergeSort_of_pairwise (by decide : ["a.p", "b"].Pairwise fun a b => decide (a ≤ b) = true)
  have hyielded : (yielded (ofDirectory selfLinked.tree {} ⟨.root, []⟩ []).found).2 = none := by
    simp only [ofDirectory, within, hnames]
    rfl
  obtain ⟨found, hfound, -⟩ := discoverTests_of_directoryAt {} hroot
  rcases discoverTests_of_same_root hroot hlinked rfl hbelow with hsame | ⟨p, p', events, events', hfails, -⟩
  · exact hsame
  · rw [hyielded] at hfound
    cases hfound.symm.trans hfails

/-- A root with nothing in it. -/
def vacant : FileSystem where
  tree := .shallow [] (by decide) (by decide)

/-- Past a directory that is missing, a path names the root and does not lead there. -/
theorem discoverTests_pastMissing :
    vacant.placeOf ⟨.root, []⟩ = vacant.placeOf ⟨.root, ["m", ".."]⟩ ∧
      (∃ w, vacant.walk {} ⟨.root, []⟩ = .ok w ∧ yielded w.found = ([], none)) ∧
      vacant.discoverTests (some ⟨.root, []⟩) (some {}) = .ok {} ∧
      vacant.discoverTests (some ⟨.root, ["m", ".."]⟩) (some {}) =
        .error ⟨.inaccessible ⟨.missing, ⟨.root, ["m", ".."]⟩⟩, []⟩ := by
  have hroot : vacant.directoryAt ⟨.root, []⟩ = .ok [] := rfl
  have hnames : vacant.tree.names [] = [] := List.mergeSort_nil
  have hfound : (ofDirectory vacant.tree {} ⟨.root, []⟩ []).found = [] := by
    simp only [ofDirectory, within, hnames]
    rfl
  have hwalk := walk_of_directoryAt {} hroot
  refine ⟨rfl, ⟨_, hwalk, by rw [hfound]; rfl⟩, ?_, rfl⟩
  rw [discoverTests_of_walk hwalk, hfound]
  rfl

end FileSystem

end TestDiscovery
