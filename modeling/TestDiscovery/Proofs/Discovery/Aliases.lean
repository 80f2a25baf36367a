-- SUMMARY: A walk yields a file under several names only through links to it, and paths from the root tell files apart.
import TestDiscovery.Proofs.Discovery.Agreement
import TestDiscovery.Proofs.Scan.TrailingBlanks

/-!
# Files under several names

The walk enters a directory once, but it takes a link to a file for a source of its own. So a file may be scanned under
several names. Of two sources that are the same file one is such a link, since without links an entry is the place that
it is listed at. All sources below the root that are the same file carry the same path in what discovery gives, and
different files carry different ones.
-/

namespace TestDiscovery

namespace FileTree

variable {t : FileTree} {dir place : Location} {name : String} {node : Node}

/-- An entry that is no link leads to itself. -/
theorem follow_of_get? (hget : t.get? (name :: dir) = some node) (hlink : ∀ target, node ≠ .link target) :
    t.follow dir [name] = .ok (name :: dir) := by
  obtain ⟨hdir, hname⟩ := parent_isDir hget
  have hfile := FileName.of_isFileName hname
  rw [follow, followDepth]
  cases node with
  | link target => exact absurd rfl (hlink target)
  | _ =>
    simp [followWith, isDirAt, hdir, hfile.ne_empty, hfile.ne_dot, hfile.ne_dots, Nat.not_lt.2 hfile.short, hget]

/-- All names on the way to something are names that a file system accepts. -/
theorem isFileName_of_mem (hget : t.get? place = some node) : ∀ name ∈ place, isFileName name = true := by
  induction place generalizing node with
  | nil => exact fun _ hmem => absurd hmem List.not_mem_nil
  | cons first place ih =>
    obtain ⟨hdir, hfirst⟩ := parent_isDir hget
    intro name hmem
    rcases List.mem_cons.1 hmem with rfl | hmem
    · exact hfirst
    · exact ih hdir name hmem

end FileTree

namespace FileSystem

open Walk

variable {fs : FileSystem} {o : Options} {root : Path} {top : Location}

/-! ## Links to files -/

/-- Whether the entry that a path ends with is a link itself. -/
def isLink (fs : FileSystem) (p : Path) : Bool :=
  match fs.locate p.parent with
  | .ok dir =>
    match fs.tree.get? (p.name :: dir) with
    | some (.link _) => true
    | _ => false
  | .error _ => false

/-- An entry of a directory is the place where it is listed, unless it is a link. -/
theorem place_of_not_link {p : Path} {d place : Location} {name : String} {node : Node} (hlocate : fs.locate p = .ok d)
    (hlisted : (fs.tree.get? (name :: d)).isSome) (hleads : fs.tree.entry d name = .ok (place, node))
    (hlink : fs.isLink (p.child name) = false) : place = name :: d := by
  obtain ⟨listed, hget⟩ := Option.isSome_iff_exists.1 hlisted
  have hnode : ∀ target, listed ≠ .link target := by
    rintro target rfl
    simp [isLink, hlocate, hget] at hlink
  have hfollow := (FileTree.follow_of_entry hleads).1
  rw [FileTree.follow_of_get? hget hnode] at hfollow
  exact (Except.ok.inj hfollow).symm

/-- Of two entries that the walk passes and finds to be the same file, one is a link. -/
theorem isLink_of_same_place {i j : Item} (h : fs.directoryAt root = .ok top)
    (hi : (i.path, i.dir) ∈ (ofDirectory fs.tree o root top).entered ∧ i.name ∈ fs.tree.names i.dir)
    (hj : (j.path, j.dir) ∈ (ofDirectory fs.tree o root top).entered ∧ j.name ∈ fs.tree.names j.dir)
    (hkeys : i.key ≠ j.key) (hsight : i.sight? fs.tree o = some (.ok i.full))
    (hsight' : j.sight? fs.tree o = some (.ok j.full)) (hsame : fs.placeOf i.full = fs.placeOf j.full) :
    fs.isLink i.full = true ∨ fs.isLink j.full = true := by
  obtain ⟨-, ⟨place, bytes, hleads⟩, -⟩ := Item.sight?_eq_ok_iff.1 hsight
  obtain ⟨-, ⟨place', bytes', hleads'⟩, -⟩ := Item.sight?_eq_ok_iff.1 hsight'
  have hlisted := FileTree.mem_names_iff.1 hi.2
  have hlisted' := FileTree.mem_names_iff.1 hj.2
  have hplaces : place = place' := by
    have hplace : fs.placeOf i.full = .ok place := (placeOf_of_entered h hi.1 hlisted hleads).1
    have hplace' : fs.placeOf j.full = .ok place' := (placeOf_of_entered h hj.1 hlisted' hleads').1
    rw [hplace, hplace'] at hsame
    exact Except.ok.inj hsame
  by_contra hneither
  rw [not_or, Bool.not_eq_true, Bool.not_eq_true] at hneither
  have hhere := place_of_not_link (locate_of_entered h hi.1).1 hlisted hleads hneither.1
  have hhere' := place_of_not_link (locate_of_entered h hj.1).1 hlisted' hleads' hneither.2
  obtain ⟨hname, hdir⟩ := List.cons.inj ((hhere.symm.trans hplaces).trans hhere')
  exact hkeys (Prod.ext hdir hname)

/-- Of two files that a walk yields and that are the same file, one is a link. -/
theorem pairwise_yielded (h : fs.directoryAt root = .ok top) :
    (yielded (ofDirectory fs.tree o root top).found).1.Pairwise fun f g =>
      fs.placeOf f = fs.placeOf g → fs.isLink f = true ∨ fs.isLink g = true := by
  obtain ⟨passed, hruns, hfound⟩ := runs_ofDirectory o root (directoryAt_eq_ok_iff.1 h).2.2
  have hlisted := hruns.listed_passed (.items fs.tree root top)
  have hkeys := (hruns.nodup_passed (.items fs.tree root top) nodup_keys_items).1
  have hpassed : passed.Pairwise fun i j => i ∈ passed ∧ j ∈ passed ∧ i.key ≠ j.key :=
    List.Pairwise.and_mem.1 (List.pairwise_map.1 hkeys)
  apply pairwise_yielded_of_found
  rw [hfound]
  refine hpassed.filterMap _ ?_
  rintro i j ⟨hi, hj, hne⟩ _ hsight _ hsight' f g rfl rfl hsame
  obtain rfl := (Item.sight?_eq_ok_iff.1 hsight).1
  obtain rfl := (Item.sight?_eq_ok_iff.1 hsight').1
  exact isLink_of_same_place h (hlisted i hi) (hlisted j hj) hne hsight hsight' hsame

/-! ## Paths from the root -/

/-- The file lies below the root, links followed. -/
def LiesBelow (fs : FileSystem) (file root : Path) : Prop :=
  ∃ place top, fs.placeOf file = .ok place ∧ fs.placeOf root = .ok top ∧ top <:+ place

/-- Paths of accepted names are told apart by their texts. -/
theorem text_inj {names names' : List String} (h : ∀ name ∈ names, isFileName name = true)
    (h' : ∀ name ∈ names', isFileName name = true) (htext : Path.text { names } = Path.text { names := names' }) :
    names = names' := by
  have hnormal : ∀ {ns : List String}, (∀ name ∈ ns, isFileName name = true) → ({ names := ns } : Path).Normal :=
    fun hns => Path.normal_of_fileNames .here fun name hname => .of_isFileName (hns name hname)
  have hpaths : ({ names } : Path) = { names := names' } := by
    rw [← Path.parse_text (hnormal h), htext, Path.parse_text (hnormal h')]
  exact congrArg Path.names hpaths

section

variable {f g : Path}

/-- A file that a walk yields is somewhere. -/
theorem exists_place_of_mem_yielded (h : fs.directoryAt root = .ok top)
    (hf : f ∈ (yielded (ofDirectory fs.tree o root top).found).1) :
    ∃ place bytes, fs.placeOf f = .ok place ∧ f.hasNul = false ∧ fs.tree.get? place = some (.file bytes) := by
  obtain ⟨p, d, name, rfl, hentered, hsource⟩ :=
    entry_of_ok_mem_found (directoryAt_eq_ok_iff.1 h).2.2 (ok_mem_of_mem_yielded hf)
  obtain ⟨place, bytes, hleads⟩ := hsource.leads
  obtain ⟨hplace, hclean⟩ := placeOf_of_entered h hentered hsource.listed hleads
  exact ⟨place, bytes, hplace, hclean, (FileTree.follow_of_entry hleads).2⟩

/-- A yielded file below the root is seen from there by the names that lead down to it. -/
theorem relativePath_of_liesBelow (h : fs.directoryAt root = .ok top)
    (hf : f ∈ (yielded (ofDirectory fs.tree o root top).found).1) (hbelow : fs.LiesBelow f root) :
    ∃ names : List String, fs.placeOf f = .ok (names.reverse ++ top) ∧
      fs.relativePath f root = .ok (Path.text { names }) ∧ ∀ name ∈ names, isFileName name = true := by
  obtain ⟨hnul, hlocate, -⟩ := directoryAt_eq_ok_iff.1 h
  have hroot : fs.placeOf root = .ok top := placeOf_of_locate hlocate hnul
  obtain ⟨place, bytes, hplace, hclean, hget⟩ := exists_place_of_mem_yielded h hf
  obtain ⟨place', top', hplace', htop', below, hsuffix⟩ := hbelow
  obtain rfl : place' = place := Except.ok.inj (hplace'.symm.trans hplace)
  obtain rfl : top' = top := Except.ok.inj (htop'.symm.trans hroot)
  subst hsuffix
  refine ⟨below.reverse, by rw [List.reverse_reverse, hplace], ?_, ?_⟩
  · exact relativePath_of_below hplace hroot hclean hnul (namesBelow?_append below top')
  · intro name hname
    exact FileTree.isFileName_of_mem hget name (List.mem_append_left _ (List.mem_reverse.1 hname))

/-- Of the yielded files below the root, different ones are seen by different paths. -/
theorem relativePath_eq_iff (h : fs.directoryAt root = .ok top)
    (hf : f ∈ (yielded (ofDirectory fs.tree o root top).found).1)
    (hg : g ∈ (yielded (ofDirectory fs.tree o root top).found).1) (hfbelow : fs.LiesBelow f root)
    (hgbelow : fs.LiesBelow g root) :
    fs.relativePath f root = fs.relativePath g root ↔ fs.placeOf f = fs.placeOf g := by
  obtain ⟨names, hplace, hpath, hnames⟩ := relativePath_of_liesBelow h hf hfbelow
  obtain ⟨names', hplace', hpath', hnames'⟩ := relativePath_of_liesBelow h hg hgbelow
  rw [hplace, hplace', hpath, hpath', Except.ok.injEq, Except.ok.injEq]
  constructor
  · intro htext
    rw [text_inj hnames hnames' htext]
  · intro hsame
    rw [List.reverse_injective (List.append_cancel_right hsame)]

/-! ## What discovery gives -/

/-- In a file that the walk has found, discovery gives entities with the path that the file is seen by. -/
theorem discoverSource_of_ok_mem_found (h : fs.directoryAt root = .ok top)
    (hf : .ok f ∈ (ofDirectory fs.tree o root top).found) :
    ∃ found, fs.discoverSource o root f = .ok found ∧ ∀ e ∈ found.entities, fs.relativePath f root = .ok e.path := by
  obtain ⟨p, d, name, rfl, hentered, hsource⟩ := entry_of_ok_mem_found (directoryAt_eq_ok_iff.1 h).2.2 hf
  obtain ⟨place, bytes, hleads⟩ := hsource.leads
  obtain ⟨rel, hrel, -⟩ := relativePath_of_entered h hentered hsource.listed hleads
  have hfits : isSource o (p.child name) = true := by rw [isSource, Path.name_child, hsource.suffix]
  cases hread : fs.readSource (p.child name) with
  | error e => exact ⟨_, discoverSource_of_unreadable hfits hread, fun _ hmem => absurd hmem List.not_mem_nil⟩
  | ok text =>
    refine ⟨_, discoverSource_of_text hfits hread hrel, ?_⟩
    intro e he
    rw [hrel, path_of_mem_entities e he]

end

/-- What a walk yields, as the source files or before a fault, are files. Two of them that are the same file are met
under two names, one of which is a link itself. Those below the root are seen by the same path if they are the same
file, and by different paths otherwise. Discovery gives the entities of each file in turn, all with the path that the
file is seen by. -/
theorem walk_yields_aliases {w : Walk} (h : fs.walk o root = .ok w) :
    fs.sourceFiles o root = (unlessFault (yielded w.found).1 (yielded w.found).2).mapError .inaccessible ∧
    (∀ f ∈ (yielded w.found).1, ∃ place bytes, fs.placeOf f = .ok place ∧ fs.tree.get? place = some (.file bytes)) ∧
    (yielded w.found).1.Pairwise (fun f g => fs.placeOf f = fs.placeOf g → fs.isLink f = true ∨ fs.isLink g = true) ∧
    (∀ f ∈ (yielded w.found).1, ∀ g ∈ (yielded w.found).1, fs.LiesBelow f root → fs.LiesBelow g root →
      (fs.relativePath f root = fs.relativePath g root ↔ fs.placeOf f = fs.placeOf g)) ∧
    ∃ found : Discovery,
      fs.discoverTests (some root) (some o) =
        (unlessFault found (yielded w.found).2).mapError (fun e => ⟨.inaccessible e, found.events⟩) ∧
      found.entities = (yielded w.found).1.flatMap (fun f => (fs.testsIn o root f).entities) ∧
      ∀ f ∈ (yielded w.found).1, ∀ e ∈ (fs.testsIn o root f).entities, fs.relativePath f root = .ok e.path := by
  obtain ⟨top, hdirectory, rfl⟩ := directoryAt_of_walk h
  have hsources := fun f => discoverSource_of_ok_mem_found (o := o) (f := f) hdirectory
  refine ⟨sourceFiles_of_directoryAt o hdirectory, ?_, pairwise_yielded hdirectory, ?_, ?_⟩
  · intro f hf
    obtain ⟨place, bytes, hplace, -, hget⟩ := exists_place_of_mem_yielded hdirectory hf
    exact ⟨place, bytes, hplace, hget⟩
  · exact fun f hf g hg => relativePath_eq_iff hdirectory hf hg
  · obtain ⟨found, hentities, -, hfound⟩ := discoverFound_eq_append {} fun f hf =>
      have ⟨here, hhere, _⟩ := hsources f hf
      ⟨here, hhere⟩
    refine ⟨found, (discoverTests_of_walk h).trans hfound, by simpa using hentities, ?_⟩
    intro f hf
    obtain ⟨here, hhere, hpath⟩ := hsources f (ok_mem_of_mem_yielded hf)
    rw [testsIn_of_discoverSource hhere]
    exact hpath

/-! ### A file and a link to it -/

/-- A root with a program and a link to it. -/
def fileLinked : FileSystem where
  tree := .shallow
    [("a.p", .file (Text.Utf8.encode "@Test.\nprocedure b:".toList)), ("b.p", .link "a.p")] (by decide) (by decide)

theorem directoryAt_fileLinked : fileLinked.directoryAt ⟨.root, []⟩ = .ok [] := rfl

theorem yielded_fileLinked : yielded (ofDirectory fileLinked.tree {} ⟨.root, []⟩ []).found =
    ([⟨.root, ["a.p"]⟩, ⟨.root, ["b.p"]⟩], none) := by
  have hsorted : ["a.p", "b.p"].Pairwise fun a b => decide (a ≤ b) = true := by decide
  have hnames : fileLinked.tree.names [] = ["a.p", "b.p"] := List.mergeSort_of_pairwise hsorted
  simp only [ofDirectory, within, hnames]
  rfl

theorem walk_yields_aliases_fileLinked :
    ∃ w, fileLinked.walk {} ⟨.root, []⟩ = .ok w ∧ (yielded w.found).1 = [⟨.root, ["a.p"]⟩, ⟨.root, ["b.p"]⟩] ∧
      (fileLinked.isLink ⟨.root, ["a.p"]⟩ = true ∨ fileLinked.isLink ⟨.root, ["b.p"]⟩ = true) := by
  have hwalk := walk_of_directoryAt {} directoryAt_fileLinked
  have hpairs := (walk_yields_aliases hwalk).2.2.1
  refine ⟨_, hwalk, congrArg Prod.fst yielded_fileLinked, ?_⟩
  rw [yielded_fileLinked, List.pairwise_pair] at hpairs
  exact hpairs rfl

/-- By either name the procedure is found under the path of the file. -/
theorem discoverSource_fileLinked (name : String) (hclean : (⟨.root, [name]⟩ : Path).hasNul = false)
    (hread : fileLinked.read ⟨.root, [name]⟩ = .ok (Text.Utf8.encode "@Test.\nprocedure b:".toList))
    (hpath : fileLinked.relativePath ⟨.root, [name]⟩ ⟨.root, []⟩ = .ok "a.p")
    (hfits : isSource {} ⟨.root, [name]⟩ = true) :
    fileLinked.discoverSource {} ⟨.root, []⟩ ⟨.root, [name]⟩ =
      .ok ⟨[{ kind := .procedure, name := "b", range := .onLine 1 10 1, path := "a.p" }], [.scanned "a.p" 1]⟩ := by
  have htext : String.ofList (Text.unifyNewlines "@Test.\nprocedure b:".toList) = "@Test.\nprocedure b:" := by decide
  have hread := readSource_of_encode hclean hread
  rw [htext] at hread
  have hscan : scan {} "a.p" "@Test.\nprocedure b:" = { findings := [.procedure (.onLine 1 10 1) "" "b"] } := by
    decide
  rw [discoverSource_of_text hfits hread hpath, hscan]
  rfl

/-- The link is scanned as a file of its own, so the procedure is given twice. -/
theorem sourceFiles_fileLinked :
    ∃ files found, fileLinked.sourceFiles {} ⟨.root, []⟩ = .ok files ∧ ¬ (files.map fileLinked.placeOf).Nodup ∧
      fileLinked.discoverTests (some ⟨.root, []⟩) (some {}) = .ok found ∧ ¬ found.entities.Nodup := by
  have hfiles : fileLinked.sourceFiles {} ⟨.root, []⟩ = .ok [⟨.root, ["a.p"]⟩, ⟨.root, ["b.p"]⟩] := by
    rw [sourceFiles_of_directoryAt {} directoryAt_fileLinked, yielded_fileLinked]
    rfl
  have hfile := discoverSource_fileLinked "a.p" rfl rfl rfl rfl
  have hlink := discoverSource_fileLinked "b.p" rfl rfl rfl rfl
  have hsources : ∀ f, .ok f ∈ (ofDirectory fileLinked.tree {} ⟨.root, []⟩ []).found →
      ∃ found, fileLinked.discoverSource {} ⟨.root, []⟩ f = .ok found := by
    intro f hf
    rw [found_of_sourceFiles directoryAt_fileLinked hfiles] at hf
    rcases (by simpa using hf : f = ⟨.root, ["a.p"]⟩ ∨ f = ⟨.root, ["b.p"]⟩) with rfl | rfl
    · exact ⟨_, hfile⟩
    · exact ⟨_, hlink⟩
  obtain ⟨found, hentities, -, hfound⟩ := discoverFound_eq_append {} hsources
  rw [yielded_fileLinked] at hentities hfound
  have htests := (discoverTests_of_walk (walk_of_directoryAt {} directoryAt_fileLinked)).trans hfound
  refine ⟨_, found, hfiles, by decide, htests, ?_⟩
  rw [hentities, List.flatMap_cons, List.flatMap_cons, testsIn_of_discoverSource hfile,
    testsIn_of_discoverSource hlink]
  decide

end FileSystem

end TestDiscovery
