-- SUMMARY: Where the walk, the choice of a scanner and the scanner itself agree on what a source is.
import TestDiscovery.Discovery.Tests
import TestDiscovery.Proofs.Discovery.Coverage
import TestDiscovery.Proofs.Text.Blank

/-!
# Kinds of sources

Three tests say what a source is. The walk and the choice of a scanner look at the suffix of the last name, in any
letter case. The scanner looks at the end of the path from the root, in exact letter case. The first two are the same
test. The third one differs from them at a suffix that is spelled in other letters than the options spell it, and at a
name that is nothing but an extension.
-/

namespace TestDiscovery

/-! ## Ends of texts -/

namespace Text

/-- An end without the separator lies after the separator. -/
theorem suffix_append_cons_iff {sep : Char} {ending before last : List Char} (h : sep ∉ ending) :
    ending <:+ before ++ sep :: last ↔ ending <:+ last := by
  constructor
  · intro hend
    rcases List.suffix_or_suffix_of_suffix hend (List.suffix_append before (sep :: last)) with hshort | hlong
    · rcases List.suffix_cons_iff.1 hshort with rfl | hshort
      · exact absurd List.mem_cons_self h
      · exact hshort
    · exact absurd (hlong.subset List.mem_cons_self) h
  · intro hend
    exact hend.trans ((List.suffix_cons sep last).trans (List.suffix_append before (sep :: last)))

theorem Lower.ofChar_ne_nil (c : Char) : Lower.ofChar c ≠ [] := by
  unfold Lower.ofChar
  split
  · simp
  · split <;> simp

/-- Only the empty text has the empty text as its lower case. -/
theorem toLower_eq_nil_iff {s : List Char} : toLower s = [] ↔ s = [] := by
  cases s with
  | nil => simp [toLower, Lower.after]
  | cons c s =>
    simp only [toLower, Lower.after, List.append_eq_nil_iff, reduceCtorEq, iff_false, not_and]
    intro hnil
    split at hnil
    · simp at hnil
    · exact absurd hnil (Lower.ofChar_ne_nil c)

end Text

/-! ## Extensions -/

/-- A dot and a text after it, with no other dot and no slash. -/
def IsExtension (s : String) : Prop :=
  ∃ ending, s.toList = '.' :: ending ∧ ending ≠ [] ∧ '.' ∉ ending ∧ '/' ∉ ending

theorem IsExtension.ne_empty {s : String} (h : IsExtension s) : s ≠ "" := by
  rintro rfl
  obtain ⟨ending, hext, -⟩ := h
  simp at hext

theorem IsExtension.no_slash {s : String} (h : IsExtension s) : '/' ∉ s.toList := by
  obtain ⟨ending, hext, -, -, hslash⟩ := h
  simp [hext, hslash]

/-- A name that is nothing but an extension has no suffix. -/
theorem IsExtension.suffixOf_self {s : String} (h : IsExtension s) : Path.suffixOf s = "" := by
  obtain ⟨ending, hext, -, hdot, -⟩ := h
  have hsplit : Text.splitLast? '.' s.toList = some ([], ending) := by
    rw [hext, ← List.nil_append ('.' :: ending)]
    exact Text.splitLast?_append_cons hdot
  simp [Path.suffixOf, hsplit]

/-- A suffix is the end of its name. -/
theorem Path.suffixOf_suffix (name : String) : (Path.suffixOf name).toList <:+ name.toList := by
  unfold Path.suffixOf
  split
  · next stem ending hsplit =>
    split
    · simp
    · rw [(Text.append_of_splitLast? hsplit).1, String.toList_ofList]
      exact List.suffix_append stem ('.' :: ending)
  · simp

/-- A name ends with an extension if that is its suffix, or the whole name. -/
theorem IsExtension.suffix_name_iff {s name : String} (h : IsExtension s) :
    s.toList <:+ name.toList ↔ Path.suffixOf name = s ∨ name = s := by
  constructor
  · rintro ⟨stem, hname⟩
    obtain ⟨ending, hext, hne, hdot, -⟩ := h
    cases stem with
    | nil =>
      right
      exact (String.toList_inj.1 hname).symm
    | cons c stem =>
      left
      have hsplit : Text.splitLast? '.' name.toList = some (c :: stem, ending) := by
        rw [← hname, hext]
        exact Text.splitLast?_append_cons hdot
      simp [Path.suffixOf, hsplit, hne, ← hext]
  · rintro (rfl | rfl)
    · exact Path.suffixOf_suffix name
    · exact List.suffix_refl _

/-- A text without slashes ends a path if it ends the last name. -/
theorem Path.suffix_text_iff {ending : List Char} {p : Path} (hslash : '/' ∉ ending) (hnames : p.names ≠ []) :
    ending <:+ p.text.toList ↔ ending <:+ p.name.toList := by
  rcases p.text_ends_with_name hnames with h | ⟨before, h⟩
  · rw [h]
  · rw [h, Text.suffix_append_cons_iff hslash]

theorem lowerCase_eq_empty_iff {s : String} : lowerCase s = "" ↔ s = "" := by
  unfold lowerCase
  rw [← String.toList_inj, String.toList_ofList]
  simp [Text.toLower_eq_nil_iff]

/-- A name with one of the extensions as its suffix has a fitting suffix. -/
theorem hasSuffix_of_mem {exts : List String} {name : String} (h : Path.suffixOf name ∈ exts) :
    hasSuffix exts name = true := by
  unfold hasSuffix
  rw [List.contains_iff_mem]
  exact List.mem_map_of_mem h

/-- A name that is one of the extensions has no fitting suffix. -/
theorem hasSuffix_of_extension {exts : List String} {name : String} (hexts : ∀ s ∈ exts, IsExtension s)
    (h : name ∈ exts) : hasSuffix exts name = false := by
  unfold hasSuffix
  rw [(hexts name h).suffixOf_self, Bool.eq_false_iff, Ne, List.contains_iff_mem, List.mem_map]
  rintro ⟨s, hext, hlower⟩
  have hempty : s = "" := lowerCase_eq_empty_iff.1 (hlower.trans (lowerCase_eq_empty_iff.2 rfl))
  exact (hexts s hext).ne_empty hempty

/-! ## The scanner -/

theorem SourceKind.ofPath?_eq_none_iff {o : Options} {path : String} :
    ofPath? o path = none ↔ ∀ s ∈ o.extensions, ¬ s.toList <:+ path.toList := by
  simp only [Options.extensions, List.mem_cons, List.not_mem_nil, or_false, forall_eq_or_imp, forall_eq,
    ← List.isSuffixOf_iff_suffix]
  unfold ofPath?
  split
  · next hclass => simp [hclass]
  · next hclass =>
    split
    · next hprogram => simp [hprogram]
    · next hprogram => simp [hclass, hprogram]

/-- The scanner skips a text if no extension ends its path. -/
theorem notSource_mem_events_iff {o : Options} {path text : String} :
    .notSource path ∈ (scan o path text).events ↔ ∀ s ∈ o.extensions, ¬ s.toList <:+ path.toList := by
  rw [← SourceKind.ofPath?_eq_none_iff]
  unfold scan
  cases hkind : SourceKind.ofPath? o path with
  | none => simp
  | some kind =>
    cases hsuite : isSuite text with
    | false => cases kind <;> simp
    | true =>
      cases kind with
      | programFile => simp
      | classFile =>
        cases hbody : Scan.suiteBody o text.toList with
        | anchored range name members => simp [Scan.SuiteBody.events]
        | headless members =>
          simp only [Scan.SuiteBody.events, reduceCtorEq, iff_false]
          split <;> simp

/-- Between extensions, the scanner skips a text if neither the suffix of its last name nor the name itself is one. -/
theorem notSource_mem_events_iff_of_extensions {o : Options} (hexts : ∀ s ∈ o.extensions, IsExtension s) {rel : Path}
    (hne : rel.names ≠ []) {text : String} :
    .notSource rel.text ∈ (scan o rel.text text).events ↔
      Path.suffixOf rel.name ∉ o.extensions ∧ rel.name ∉ o.extensions := by
  rw [notSource_mem_events_iff]
  constructor
  · intro hends
    constructor
    · intro hmem
      apply hends _ hmem
      rw [Path.suffix_text_iff (hexts _ hmem).no_slash hne]
      exact Path.suffixOf_suffix rel.name
    · intro hmem
      apply hends _ hmem
      rw [Path.suffix_text_iff (hexts _ hmem).no_slash hne]
  · rintro ⟨hsuffix, hname⟩ s hs hends
    rw [Path.suffix_text_iff (hexts s hs).no_slash hne, (hexts s hs).suffix_name_iff] at hends
    rcases hends with heq | heq
    · exact hsuffix (heq ▸ hs)
    · exact hname (heq ▸ hs)

/-! ## Files that the walk meets -/

namespace Walk

/-- The last name of a file as it is seen from the root at `top`: that of the place that the entry leads to, or the
entry's own name if that place does not lie below the root. -/
def seenName (top place : Location) (name : String) : String :=
  if top.isSuffixOf place then place.headD name else name

/-- At an entry of an entered directory that leads to a file, the walk finds a source if the suffix of the entry fits. -/
theorem ok_mem_found_iff {t : FileTree} {o : Options} {path p : Path} {dir d place : Location} {name : String}
    {bytes : List UInt8} (hdir : t.isDirAt dir = true) (hentered : (p, d) ∈ (ofDirectory t o path dir).entered)
    (hlisted : (t.get? (name :: d)).isSome) (hleads : t.entry d name = .ok (place, .file bytes)) :
    .ok (p.child name) ∈ (ofDirectory t o path dir).found ↔ hasSuffix o.extensions name = true := by
  obtain ⟨passed, -, hfound, hsettled⟩ := runs_settled o path hdir
  rw [hfound, List.mem_filterMap]
  constructor
  · rintro ⟨i, -, hsight⟩
    obtain ⟨hfull, -, hsuffix⟩ := Item.sight?_eq_ok_iff.1 hsight
    rwa [(Path.child_inj.1 hfull).2]
  · intro hsuffix
    have hnone : Item.target? t o ⟨p, d, name⟩ = none := by simp [Item.target?, hleads]
    have hpassed := (hsettled p d hentered name (FileTree.mem_names_iff.2 hlisted)).2 hnone
    exact ⟨⟨p, d, name⟩, hpassed, Item.sight?_eq_ok_iff.2 ⟨rfl, ⟨place, bytes, hleads⟩, hsuffix⟩⟩

end Walk

namespace FileSystem

open Walk

variable {fs : FileSystem} {o : Options} {root p : Path} {top d place : Location} {name : String} {bytes : List UInt8}

theorem namesBelow?_append (below top : Location) : namesBelow? top (below ++ top) = some below.reverse := by
  unfold namesBelow?
  rw [if_pos (List.isSuffixOf_iff_suffix.2 (List.suffix_append below top))]
  simp

/-- A file below the root is seen by the names that lead to its place. -/
theorem relativePath_of_below {file : Path} {names : List String} (hfile : fs.placeOf file = .ok place)
    (hroot : fs.placeOf root = .ok top) (hfnul : file.hasNul = false) (hrnul : root.hasNul = false)
    (h : namesBelow? top place = some names) : fs.relativePath file root = .ok (Path.text { names }) := by
  unfold relativePath
  simp [hfnul, hrnul, hfile, hroot, h, bind, Except.bind, pure, Except.pure]

/-- A file elsewhere is seen by its own path. -/
theorem relativePath_of_elsewhere {file : Path} (hfile : fs.placeOf file = .ok place)
    (hroot : fs.placeOf root = .ok top) (hfnul : file.hasNul = false) (hrnul : root.hasNul = false)
    (h : namesBelow? top place = none) : fs.relativePath file root = .ok file.text := by
  unfold relativePath
  simp [hfnul, hrnul, hfile, hroot, h, bind, Except.bind, pure, Except.pure]

/-- The path of an entry that the walk meets names the place that the entry leads to. -/
theorem placeOf_of_entered {node : Node} (h : fs.directoryAt root = .ok top)
    (hentered : (p, d) ∈ (ofDirectory fs.tree o root top).entered) (hlisted : (fs.tree.get? (name :: d)).isSome)
    (hleads : fs.tree.entry d name = .ok (place, node)) :
    fs.placeOf (p.child name) = .ok place ∧ (p.child name).hasNul = false := by
  obtain ⟨hlocated, hclean⟩ := locate_of_entered h hentered
  have hfollow := (FileTree.follow_of_entry hleads).1
  have hname := FileName.of_isFileName (FileTree.isFileName_of_mem_names (FileTree.mem_names_iff.2 hlisted))
  have hchild : (p.child name).hasNul = false := Path.hasNul_child hclean hname
  exact ⟨placeOf_of_locate ((locate_child name hlocated).trans hfollow) hchild, hchild⟩

/-- A file that the walk meets has a path from the root, which ends with the name that is seen from there. -/
theorem relativePath_of_entered (h : fs.directoryAt root = .ok top)
    (hentered : (p, d) ∈ (ofDirectory fs.tree o root top).entered) (hlisted : (fs.tree.get? (name :: d)).isSome)
    (hleads : fs.tree.entry d name = .ok (place, .file bytes)) :
    ∃ rel : Path, fs.relativePath (p.child name) root = .ok rel.text ∧ rel.names ≠ [] ∧
      rel.name = seenName top place name := by
  obtain ⟨hnul, hlocate, hdir⟩ := directoryAt_eq_ok_iff.1 h
  have hfile := (FileTree.follow_of_entry hleads).2
  obtain ⟨hplace, hchild⟩ := placeOf_of_entered h hentered hlisted hleads
  have hrootPlace : fs.placeOf root = .ok top := placeOf_of_locate hlocate hnul
  unfold seenName
  by_cases hbelow : top.isSuffixOf place = true
  · rw [if_pos hbelow]
    obtain ⟨below, rfl⟩ := List.isSuffixOf_iff_suffix.1 hbelow
    refine ⟨{ names := below.reverse },
      relativePath_of_below hplace hrootPlace hchild hnul (namesBelow?_append below top), ?_⟩
    cases below with
    | nil =>
      -- The root is a directory, and a file is none.
      rw [List.nil_append] at hfile
      simp [FileTree.isDirAt, hfile] at hdir
    | cons first below => simp [Path.name, List.getLastD_eq_getLast?]
  · rw [if_neg hbelow]
    have hnames : namesBelow? top place = none := by
      unfold namesBelow?
      rw [if_neg hbelow]
    exact ⟨p.child name, relativePath_of_elsewhere hplace hrootPlace hchild hnul hnames, by simp,
      Path.name_child p name⟩

/-- The walk and the choice of a scanner agree on every file that the walk meets. The scanner goes by the end of the
path from the root; between extensions it differs from them only in letter case and at names that are extensions. -/
theorem source_tests_agree (h : fs.directoryAt root = .ok top)
    (hentered : (p, d) ∈ (ofDirectory fs.tree o root top).entered) (hlisted : (fs.tree.get? (name :: d)).isSome)
    (hleads : fs.tree.entry d name = .ok (place, .file bytes)) :
    (.ok (p.child name) ∈ (ofDirectory fs.tree o root top).found ↔ isSource o (p.child name) = true) ∧
    (∀ files, fs.sourceFiles o root = .ok files → (p.child name ∈ files ↔ isSource o (p.child name) = true)) ∧
    ∃ rel, fs.relativePath (p.child name) root = .ok rel ∧
      (∀ text, .notSource rel ∈ (scan o rel text).events ↔ ∀ s ∈ o.extensions, ¬ s.toList <:+ rel.toList) ∧
      ((∀ s ∈ o.extensions, IsExtension s) →
        (∀ text, .notSource rel ∈ (scan o rel text).events ↔
          Path.suffixOf (seenName top place name) ∉ o.extensions ∧ seenName top place name ∉ o.extensions) ∧
        (seenName top place name = name → ∀ text,
          (isSource o (p.child name) = true ∧ .notSource rel ∈ (scan o rel text).events ↔
            isSource o (p.child name) = true ∧ Path.suffixOf name ∉ o.extensions) ∧
          (isSource o (p.child name) = false ∧ .notSource rel ∉ (scan o rel text).events ↔ name ∈ o.extensions))) := by
  obtain ⟨-, -, hdir⟩ := directoryAt_eq_ok_iff.1 h
  have hsource : isSource o (p.child name) = hasSuffix o.extensions name := by rw [isSource, Path.name_child]
  have hfound : .ok (p.child name) ∈ (ofDirectory fs.tree o root top).found ↔ isSource o (p.child name) = true := by
    rw [ok_mem_found_iff hdir hentered hlisted hleads, hsource]
  refine ⟨hfound, ?_, ?_⟩
  · intro files hfiles
    rw [← hfound, found_of_sourceFiles h hfiles]
    simp
  · obtain ⟨rel, hrel, hne, hlast⟩ := relativePath_of_entered h hentered hlisted hleads
    refine ⟨rel.text, hrel, fun text => notSource_mem_events_iff, ?_⟩
    intro hexts
    have hskips : ∀ text, .notSource rel.text ∈ (scan o rel.text text).events ↔
        Path.suffixOf (seenName top place name) ∉ o.extensions ∧ seenName top place name ∉ o.extensions := by
      intro text
      rw [← hlast]
      exact notSource_mem_events_iff_of_extensions hexts hne
    refine ⟨hskips, ?_⟩
    intro hseen text
    rw [hskips, hseen, hsource]
    constructor
    · constructor
      · rintro ⟨hfits, hsuffix, -⟩
        exact ⟨hfits, hsuffix⟩
      · rintro ⟨hfits, hsuffix⟩
        refine ⟨hfits, hsuffix, fun hname => ?_⟩
        simp [hasSuffix_of_extension hexts hname] at hfits
    · constructor
      · rintro ⟨hmisses, hskipped⟩
        by_contra hname
        refine hskipped ⟨fun hsuffix => ?_, hname⟩
        simp [hasSuffix_of_mem hsuffix] at hmisses
      · intro hname
        exact ⟨hasSuffix_of_extension hexts hname, fun hskipped => hskipped.2 hname⟩

/-! ### A source in capital letters -/

/-- A root with nothing but a class file whose extension is in capital letters. -/
def capitalNamed : FileSystem where
  tree := .shallow [("A.CLS", .file [])] (by decide) (by decide)

theorem source_tests_differ_capitalNamed :
    capitalNamed.sourceFiles {} ⟨.root, []⟩ = .ok [⟨.root, ["A.CLS"]⟩] ∧ isSource {} ⟨.root, ["A.CLS"]⟩ = true ∧
      capitalNamed.relativePath ⟨.root, ["A.CLS"]⟩ ⟨.root, []⟩ = .ok "A.CLS" ∧
      ∀ text, .notSource "A.CLS" ∈ (scan {} "A.CLS" text).events := by
  have hroot : capitalNamed.directoryAt ⟨.root, []⟩ = .ok [] := rfl
  have hnames : capitalNamed.tree.names [] = ["A.CLS"] := by
    simp [FileTree.names, capitalNamed, FileTree.shallow, FileTree.nameIn?]
  refine ⟨?_, by decide, rfl, ?_⟩
  · rw [sourceFiles_of_directoryAt {} hroot]
    simp only [ofDirectory, within, hnames]
    rfl
  · intro text
    rw [notSource_mem_events_iff]
    decide

theorem source_tests_agree_capitalNamed :
    ∃ rel, capitalNamed.relativePath ⟨.root, ["A.CLS"]⟩ ⟨.root, []⟩ = .ok rel ∧
      ∀ text, isSource {} ⟨.root, ["A.CLS"]⟩ = true ∧ .notSource rel ∈ (scan {} rel text).events := by
  have hroot : capitalNamed.directoryAt ⟨.root, []⟩ = .ok [] := rfl
  obtain ⟨passed, hruns, -⟩ := runs_ofDirectory {} ⟨.root, []⟩ (directoryAt_eq_ok_iff.1 hroot).2.2
  have hentered := hruns.entered_mono List.mem_cons_self
  have hfile : capitalNamed.tree.entry [] "A.CLS" = .ok (["A.CLS"], .file []) := rfl
  obtain ⟨-, -, rel, hrel, -, hkinds⟩ := source_tests_agree (o := {}) hroot hentered rfl hfile
  have hexts : ∀ s ∈ ({} : Options).extensions, IsExtension s := by
    intro s hs
    rcases List.mem_pair.1 hs with rfl | rfl
    · exact ⟨['c', 'l', 's'], by decide⟩
    · exact ⟨['p'], by decide⟩
  refine ⟨rel, hrel, fun text => ?_⟩
  exact ((hkinds hexts).2 rfl text).1.2 ⟨by decide, by decide⟩

end FileSystem

end TestDiscovery
