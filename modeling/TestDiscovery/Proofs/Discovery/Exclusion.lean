-- SUMMARY: The walk goes through no excluded name, and comes into an excluded directory through a link only.
import TestDiscovery.Proofs.Discovery.Aliases

/-!
# Excluded directories

A directory is excluded by its name, and the walk looks at the names of entries. So no path of a source goes through an
excluded name. An entry that is no link has the name of the directory that it is, which is then not excluded either; a
link may have another name. So a source that really lies in an excluded directory has been reached through a link that
leads to this directory or to something in it.
-/

namespace TestDiscovery

namespace Path

theorem join_nil (p : Path) : p.join {} = p := by simp [join, isAbsolute]

/-- A path goes on by one more name. -/
theorem join_concat (p : Path) (names : List String) (name : String) :
    p.join { names := names ++ [name] } = (p.join { names }).child name := by
  simp [join, isAbsolute, child]

end Path

namespace FileSystem

open Walk

variable {fs : FileSystem} {o : Options} {root p : Path} {top d place dir : Location} {names : List String} {name : String}
  {node : Node}

/-! ## Ways from the root -/

/-- A directory below the root at `top` whose name is excluded. -/
structure IsExcluded (fs : FileSystem) (o : Options) (top dir : Location) : Prop where
  isDir : fs.tree.isDirAt dir = true
  named : ∃ name above, dir = name :: above ∧ name ∈ o.excludeDirs ∧ top <:+ above

/-- On the way from a root by some names there is a link that leads to a directory or to something in it. -/
def LinkedInto (fs : FileSystem) (root : Path) (names : List String) (dir : Location) : Prop :=
  ∃ stretch, stretch ≠ [] ∧ stretch <+: names ∧ fs.isLink (root.join { names := stretch }) = true ∧
    ∃ place, fs.placeOf (root.join { names := stretch }) = .ok place ∧ dir <:+ place

/-- Whatever excluded directory a place lies in, there is a link into it on the way to the place. -/
def EntersByLinks (fs : FileSystem) (o : Options) (root : Path) (top : Location) (names : List String) (place : Location) :
    Prop :=
  ∀ dir, fs.IsExcluded o top dir → dir <:+ place → fs.LinkedInto root names dir

/-- The root lies in no directory below it. -/
theorem EntersByLinks.nil : fs.EntersByLinks o root top [] top := by
  rintro dir ⟨-, name, above, rfl, -, habove⟩ hdir
  have hlong := habove.length_le
  have hshort := hdir.length_le
  rw [List.length_cons] at hshort
  omega

/-- One more name leads through a link, or to the place where it is listed. A directory that is listed there is not
excluded, if its name is kept. -/
theorem EntersByLinks.concat (h : fs.EntersByLinks o root top names d) (hlocate : fs.locate (root.join { names }) = .ok d)
    (hclean : ((root.join { names }).child name).hasNul = false) (hlisted : (fs.tree.get? (name :: d)).isSome)
    (hleads : fs.tree.entry d name = .ok (place, node)) (hkept : node = .dir → name ∉ o.excludeDirs) :
    fs.EntersByLinks o root top (names ++ [name]) place := by
  intro dir hexcluded hdir
  obtain ⟨hfollow, hget⟩ := FileTree.follow_of_entry hleads
  cases hlink : fs.isLink ((root.join { names }).child name) with
  | true =>
    have hplace := placeOf_of_locate ((locate_child name hlocate).trans hfollow) hclean
    rw [← Path.join_concat] at hlink hplace
    exact ⟨names ++ [name], by simp, List.prefix_rfl, hlink, place, hplace, hdir⟩
  | false =>
    obtain rfl := place_of_not_link hlocate hlisted hleads hlink
    rcases List.suffix_cons_iff.1 hdir with rfl | hdir
    · obtain ⟨hisDir, _, _, hsame, hname, -⟩ := hexcluded
      obtain ⟨rfl, rfl⟩ := List.cons.inj hsame
      have hnode : node = .dir := by simpa [FileTree.isDirAt, hget] using hisDir
      exact absurd hname (hkept hnode)
    · obtain ⟨stretch, hne, hprefix, hinto⟩ := h dir hexcluded hdir
      exact ⟨stretch, hne, hprefix.trans (List.prefix_append names [name]), hinto⟩

/-- The way to a directory that the walk has entered: names that are not excluded lead to it from the root, and links
wherever it lies in an excluded directory. -/
structure Way (fs : FileSystem) (o : Options) (root : Path) (top : Location) (names : List String) (d : Location) :
    Prop where
  located : fs.locate (root.join { names }) = .ok d
  clean : (root.join { names }).hasNul = false
  kept : ∀ name ∈ names, name ∉ o.excludeDirs
  linked : fs.EntersByLinks o root top names d

/-- The walk enters a directory on such a way. -/
theorem way_of_entered (h : fs.directoryAt root = .ok top)
    (hentered : (p, d) ∈ (ofDirectory fs.tree o root top).entered) :
    ∃ names, p = root.join { names } ∧ fs.Way o root top names d := by
  obtain ⟨hnul, hlocate, hdir⟩ := directoryAt_eq_ok_iff.1 h
  apply invariant_ofDirectory (P := fun p d => ∃ names, p = root.join { names } ∧ fs.Way o root top names d) hdir ?_ ?_
    hentered
  · refine ⟨[], (Path.join_nil root).symm, ?_⟩
    constructor
    case located => rwa [Path.join_nil]
    case clean => rwa [Path.join_nil]
    case kept => exact fun _ hname => absurd hname List.not_mem_nil
    case linked => exact .nil
  · rintro ⟨_, d, name⟩ ⟨names, rfl, hway⟩ hname place htarget
    obtain ⟨hleads, hkept⟩ := Item.target?_eq_some_iff.1 htarget
    have hchild := Path.hasNul_child hway.clean (.of_isFileName (FileTree.isFileName_of_mem_names hname))
    refine ⟨names ++ [name], (Path.join_concat root names name).symm, ?_⟩
    constructor
    case located =>
      rw [Path.join_concat, locate_child name hway.located]
      exact (FileTree.follow_of_entry hleads).1
    case clean => rwa [Path.join_concat]
    case kept =>
      intro other hother
      rcases List.mem_append.1 hother with hother | hother
      · exact hway.kept other hother
      · rwa [List.mem_singleton.1 hother]
    case linked =>
      exact hway.linked.concat hway.located hchild (FileTree.mem_names_iff.1 hname) hleads fun _ => hkept

/-! ## Sources -/

/-- No path of a source that a walk yields goes through an excluded name below the root. If the source really lies in an
excluded directory below the root, then an entry on its path is a link, which leads to this directory or to something in
it. -/
theorem excluded_entered_by_links {w : Walk} (h : fs.walk o root = .ok w) :
    ∃ top, fs.placeOf root = .ok top ∧ ∀ f ∈ (yielded w.found).1, ∃ names name place,
      f = root.join { names := names ++ [name] } ∧ (∀ other ∈ names, other ∉ o.excludeDirs) ∧
      fs.placeOf f = .ok place ∧ ∀ dir, fs.IsExcluded o top dir → dir <:+ place → fs.LinkedInto root (names ++ [name]) dir := by
  obtain ⟨top, hdirectory, rfl⟩ := directoryAt_of_walk h
  obtain ⟨hnul, hlocate, hdir⟩ := directoryAt_eq_ok_iff.1 hdirectory
  refine ⟨top, placeOf_of_locate hlocate hnul, ?_⟩
  intro f hf
  obtain ⟨p, d, name, rfl, hentered, hsource⟩ := entry_of_ok_mem_found hdir (ok_mem_of_mem_yielded hf)
  obtain ⟨place, bytes, hleads⟩ := hsource.leads
  obtain ⟨hplace, hclean⟩ := placeOf_of_entered hdirectory hentered hsource.listed hleads
  obtain ⟨names, rfl, hway⟩ := way_of_entered hdirectory hentered
  refine ⟨names, name, place, (Path.join_concat root names name).symm, hway.kept, hplace, ?_⟩
  exact hway.linked.concat hway.located hclean hsource.listed hleads nofun

/-! ### An excluded directory and a link to it -/

/-- A root with an excluded directory that holds a program, and a link of another name to the directory. -/
def excludedLinked : FileSystem where
  tree := {
    entries := [(["l"], .link "node_modules"), (["node_modules"], .dir), (["a.p", "node_modules"], .file [])]
    distinct := by decide
    placed := by
      intro e he
      simp only [List.mem_cons, List.not_mem_nil, or_false] at he
      rcases he with rfl | rfl | rfl
      · exact ⟨"l", [], rfl, by decide, .inl rfl⟩
      · exact ⟨"node_modules", [], rfl, by decide, .inl rfl⟩
      · exact ⟨"a.p", ["node_modules"], rfl, by decide, .inr (by decide)⟩ }

theorem isExcluded_excludedLinked : excludedLinked.IsExcluded {} [] ["node_modules"] :=
  ⟨by decide, "node_modules", [], rfl, by decide, List.nil_suffix⟩

/-- The walk goes through the link. -/
theorem yielded_excludedLinked : yielded (ofDirectory excludedLinked.tree {} ⟨.root, []⟩ []).found =
    ([⟨.root, ["l", "a.p"]⟩], none) := by
  have hsorted : ["l", "node_modules"].Pairwise fun a b => decide (a ≤ b) = true := by decide
  have hroot : excludedLinked.tree.names [] = ["l", "node_modules"] := List.mergeSort_of_pairwise hsorted
  have hbelow : excludedLinked.tree.names ["node_modules"] = ["a.p"] := by
    simp [FileTree.names, excludedLinked, FileTree.nameIn?]
  have hlink : Item.target? excludedLinked.tree {} ⟨⟨.root, []⟩, [], "l"⟩ = some ["node_modules"] := rfl
  have hfile : (within excludedLinked.tree {} 2 [(⟨.root, []⟩, [])] ⟨.root, ["l"]⟩ ["node_modules"]).found =
      [.ok ⟨.root, ["l", "a.p"]⟩] := by
    rw [within, hbelow]
    rfl
  rw [ofDirectory, within, hroot, List.foldl_cons, visit_eq_of_target? hlink]
  -- The directory itself is passed by.
  change yielded (within excludedLinked.tree {} 2 [(⟨.root, []⟩, [])] ⟨.root, ["l"]⟩ ["node_modules"]).found = _
  rw [hfile]
  rfl

theorem directoryAt_excludedLinked : excludedLinked.directoryAt ⟨.root, []⟩ = .ok [] := rfl

theorem excluded_entered_by_links_excludedLinked :
    ∃ w, excludedLinked.walk {} ⟨.root, []⟩ = .ok w ∧ ⟨.root, ["l", "a.p"]⟩ ∈ (yielded w.found).1 ∧
      ∃ names name, ⟨.root, ["l", "a.p"]⟩ = Path.join ⟨.root, []⟩ { names := names ++ [name] } ∧
        excludedLinked.LinkedInto ⟨.root, []⟩ (names ++ [name]) ["node_modules"] := by
  have hwalk := walk_of_directoryAt {} directoryAt_excludedLinked
  have hmem : ⟨.root, ["l", "a.p"]⟩ ∈ (yielded (ofDirectory excludedLinked.tree {} ⟨.root, []⟩ []).found).1 := by
    rw [yielded_excludedLinked]
    exact List.mem_singleton_self _
  obtain ⟨top, htop, hsources⟩ := excluded_entered_by_links hwalk
  obtain rfl : [] = top := Except.ok.inj htop
  obtain ⟨names, name, place, hpath, -, hplace, hlinked⟩ := hsources _ hmem
  obtain rfl : ["a.p", "node_modules"] = place := Except.ok.inj hplace
  exact ⟨_, hwalk, hmem, names, name, hpath, hlinked _ isExcluded_excludedLinked (List.suffix_cons _ _)⟩

/-- The program is a source, and it really lies in the excluded directory. -/
theorem sourceFiles_excludedLinked :
    excludedLinked.placeOf ⟨.root, []⟩ = .ok [] ∧
      excludedLinked.sourceFiles {} ⟨.root, []⟩ = .ok [⟨.root, ["l", "a.p"]⟩] ∧
      excludedLinked.placeOf ⟨.root, ["l", "a.p"]⟩ = .ok ["a.p", "node_modules"] ∧
      excludedLinked.IsExcluded {} [] ["node_modules"] := by
  refine ⟨rfl, ?_, rfl, isExcluded_excludedLinked⟩
  rw [sourceFiles_of_directoryAt {} directoryAt_excludedLinked, yielded_excludedLinked]
  rfl

end FileSystem

end TestDiscovery
