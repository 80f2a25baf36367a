-- SUMMARY: Following a path in two stretches, both readings of it, and the entries of a directory.
import Mathlib.Data.List.Nodup
import Mathlib.Data.Nat.Find
import TestDiscovery.Files.System

/-!
# Stretches of a path

Following a path is following its first names and then the rest from where they lead, with the same limit on nested
links. So an entry of a directory is found alike by its path and from the place of the directory. And the place that a
path leads to is the one that it names.
-/

namespace TestDiscovery

namespace FileTree

/-! ## Stretches -/

theorem followWith_append {t : FileTree} {enter : Location → List String → Except Fault Location} {here : Location}
    {first rest : List String} :
    t.followWith enter here (first ++ rest) =
      (t.followWith enter here first).bind fun place => t.followWith enter place rest := by
  induction first generalizing here with
  | nil => rfl
  | cons piece first ih =>
    simp only [List.cons_append, followWith]
    split
    · rfl
    · split
      · exact ih
      · split
        · exact ih
        · split
          · rfl
          · split
            · split
              · exact ih
              · rfl
            · exact ih
            · rfl

theorem follow_append {t : FileTree} {here : Location} {first rest : List String} :
    t.follow here (first ++ rest) = (t.follow here first).bind fun place => t.follow place rest :=
  followWith_append

/-! ## Both readings -/

section

variable {t : FileTree} {here place : Location} {s : Spot} {pieces : List String} {depth fuel : Nat} {around : List Spot}

/-- Where the target of a link starts. -/
def origin (link : Location) (target : String) : Location := if (Path.parse target).isAbsolute then [] else link.tail

/-- What is followed with links of some depth is followed with deeper ones. -/
theorem followWith_mono {enter enter' : Location → List String → Except Fault Location}
    (henter : ∀ here pieces place, enter here pieces = .ok place → enter' here pieces = .ok place)
    (h : t.followWith enter here pieces = .ok place) : t.followWith enter' here pieces = .ok place := by
  induction pieces generalizing here with
  | nil => exact h
  | cons piece rest ih =>
    simp only [followWith] at h ⊢
    split at h
    · cases h
    · next hdir =>
      rw [if_neg hdir]
      split at h
      · next hdot => rw [if_pos hdot]; exact ih h
      · next hdot =>
        rw [if_neg hdot]
        split at h
        · next hdots => rw [if_pos hdots]; exact ih h
        · next hdots =>
          rw [if_neg hdots]
          split at h
          · cases h
          · next hshort =>
            rw [if_neg hshort]
            split at h
            · split at h
              · next reached hreached => rw [henter _ _ reached hreached]; exact ih h
              · cases h
            · exact ih h
            · cases h

theorem followDepth_mono {depth' : Nat} (hle : depth ≤ depth') (h : t.followDepth depth here pieces = .ok place) :
    t.followDepth depth' here pieces = .ok place := by
  induction depth generalizing depth' here pieces place with
  | zero => cases h
  | succ depth ih =>
    obtain ⟨depth', rfl⟩ := Nat.exists_eq_add_of_le' (Nat.le_of_add_left_le hle)
    exact followWith_mono (fun _ _ _ => ih (Nat.le_of_add_le_add_right hle)) h

/-- A lenient reading ends at a place, by whatever way. -/
def Ending.IsAt (e : Ending) (place : Location) : Prop := ∃ s : Spot, e = .at s ∧ s.place = place

/-- Where the reading of a target starts, as a spot. -/
theorem place_origin {link : Spot} {target : String} {start : Spot} (hstart : start.place = link.place.tail) :
    (if (Path.parse target).isAbsolute then Spot.root else start).place = origin link.place target := by
  unfold origin
  split
  · rfl
  · exact hstart

/-- A lenient reading goes where a strict one leads, if it does so at the links. -/
theorem resolveWith_of_followWith {enter : Location → List String → Except Fault Location}
    {read : Spot → Spot → List String → Ending}
    (hlink : ∀ link start target place, t.get? link.place = some (.link target) →
      start.place = origin link.place target → enter (origin link.place target) (Path.pieces target) = .ok place →
      (read link start (Path.pieces target)).IsAt place)
    (h : t.followWith enter s.place pieces = .ok place) : (t.resolveWith read s pieces).IsAt place := by
  induction pieces generalizing s with
  | nil =>
    cases h
    exact ⟨s, rfl, rfl⟩
  | cons piece rest ih =>
    simp only [followWith] at h
    unfold resolveWith
    split at h
    · cases h
    · split at h
      · next hdot => rw [if_pos hdot]; exact ih h
      · next hdot =>
        rw [if_neg hdot]
        split at h
        · next hdots => rw [if_pos hdots]; exact ih (s := s.up) h
        · next hdots =>
          rw [if_neg hdots]
          split at h
          · cases h
          · split at h
            · next target hget =>
              split at h
              · next reached hreached =>
                obtain ⟨spot, hspot, rfl⟩ := hlink (s.child piece) _ target reached hget (place_origin rfl) hreached
                simp only [hget, hspot, Ending.andThen]
                exact ih h
              · cases h
            · next node hother hget =>
              cases node with
              | link target => exact absurd rfl (hother target)
              | _ => simp only [hget]; exact ih (s := s.child piece) h
            · cases h

/-- If a way can be followed, no link on it is met inside itself: what is behind a link takes less depth than the link, and
following has one outcome. So the links around a piece are those that cannot be followed within its depth. -/
theorem resolveDepth_of_followDepth (hfuel : depth ≤ fuel)
    (haround : ∀ link ∈ around, ∀ target, t.get? link.place = some (.link target) → ∀ less < depth, ∀ reached,
      t.followDepth less (origin link.place target) (Path.pieces target) ≠ .ok reached)
    (h : t.followDepth depth s.place pieces = .ok place) : (t.resolveDepth fuel around s pieces).IsAt place := by
  induction depth using Nat.strongRecOn generalizing fuel around s pieces place with
  | _ depth ih =>
    cases depth with
    | zero => cases h
    | succ depth =>
      obtain ⟨fuel, rfl⟩ := Nat.exists_eq_add_of_le' (Nat.le_of_add_left_le hfuel)
      refine resolveWith_of_followWith (fun link start target reached hget hstart hreached => ?_) h
      have hnew : link ∉ around := fun hmem => haround link hmem target hget depth depth.lt_succ_self reached hreached
      have hsome : ∃ least reached, t.followDepth least (origin link.place target) (Path.pieces target) = .ok reached :=
        ⟨depth, reached, hreached⟩
      classical
      have hle : Nat.find hsome ≤ depth := Nat.find_min' hsome ⟨reached, hreached⟩
      obtain ⟨reached', hleast⟩ := Nat.find_spec hsome
      obtain rfl : reached' = reached := Except.ok.inj ((followDepth_mono hle hleast).symm.trans hreached)
      rw [if_neg hnew]
      have hfollow : t.followDepth (Nat.find hsome) start.place (Path.pieces target) = .ok reached' := by rwa [hstart]
      refine ih _ (Nat.lt_succ_of_le hle) (Nat.le_trans hle (Nat.le_of_succ_le_succ hfuel)) ?_ hfollow
      intro link' hmem target' hget' less hless other hother
      rcases List.mem_cons.1 hmem with rfl | hmem
      · obtain rfl : target' = target := Node.link.inj (Option.some.inj (hget'.symm.trans hget))
        exact Nat.find_min hsome hless ⟨other, hother⟩
      · exact haround link' hmem target' hget' less (Nat.lt_trans hless (Nat.lt_succ_of_le hle)) other hother

/-- Where the strict reading succeeds, the lenient one leads to the same place. -/
theorem resolve_of_follow (h : t.follow s.place pieces = .ok place) : (t.resolve s pieces).IsAt place := by
  have hfuel : t.entries.length + 1 ≤ (t.entries.length + 1) * (s.place.length + 2) := Nat.le_mul_of_pos_right _ (by omega)
  exact resolveDepth_of_followDepth hfuel (fun _ hmem => absurd hmem List.not_mem_nil) h

end

/-! ## Entries of a directory -/

theorem nameIn?_eq_some_iff {l place : Location} {name : String} :
    nameIn? l place = some name ↔ place = name :: l := by
  cases place with
  | nil => simp [nameIn?]
  | cons n parent =>
    simp only [nameIn?]
    split
    · next h => subst h; simp
    · next h => simp [h]

theorem mem_names_iff {t : FileTree} {l : Location} {name : String} :
    name ∈ t.names l ↔ (t.get? (name :: l)).isSome := by
  simp only [names, List.mem_mergeSort, List.mem_filterMap, nameIn?_eq_some_iff, Option.isSome_iff_exists]
  constructor
  · rintro ⟨⟨place, node⟩, hmem, rfl⟩
    exact ⟨node, (get?_eq_some_iff (by simp)).2 hmem⟩
  · rintro ⟨node, hnode⟩
    exact ⟨(name :: l, node), (get?_eq_some_iff (by simp)).1 hnode, rfl⟩

theorem nodup_names {t : FileTree} {l : Location} : (t.names l).Nodup := by
  have hplaces : ((t.entries.map Prod.fst).filterMap (nameIn? l)).Nodup := by
    refine t.distinct.filterMap ?_
    intro a b name ha hb
    rw [Option.mem_def, nameIn?_eq_some_iff] at ha hb
    rw [ha, hb]
  rw [List.filterMap_map] at hplaces
  exact (List.mergeSort_perm _ _).nodup_iff.2 hplaces

theorem isFileName_of_mem_names {t : FileTree} {l : Location} {name : String} (h : name ∈ t.names l) :
    isFileName name = true := by
  obtain ⟨node, hnode⟩ := Option.isSome_iff_exists.1 (mem_names_iff.1 h)
  exact (parent_isDir hnode).2

theorem follow_of_entry {t : FileTree} {dir place : Location} {name : String} {node : Node}
    (h : t.entry dir name = .ok (place, node)) : t.follow dir [name] = .ok place ∧ t.get? place = some node := by
  simp only [entry] at h
  split at h
  · next reached hreached =>
    split at h
    · next node' hnode =>
      cases h
      exact ⟨hreached, hnode⟩
    · simp at h
  · simp at h

/-- A directory is the root or is listed as one. -/
theorem mem_directories {t : FileTree} {l : Location} (h : t.isDirAt l = true) : l ∈ [] :: t.directories := by
  by_cases hl : l = []
  · simp [hl]
  · simp only [isDirAt, beq_iff_eq, get?_eq_some_iff hl] at h
    exact List.mem_cons_of_mem _ (List.mem_map.2 ⟨(l, .dir), List.mem_filter.2 ⟨h, by simp⟩, rfl⟩)

/-! ## Shallow trees -/

/-- A tree whose entries all lie in the root. -/
def shallow (nodes : List (String × Node)) (hdistinct : (nodes.map Prod.fst).Nodup)
    (hnames : ∀ x ∈ nodes, isFileName x.1 = true) : FileTree where
  entries := nodes.map fun x => ([x.1], x.2)
  distinct := by
    have hplaces : (nodes.map fun x => ([x.1], x.2)).map Prod.fst = (nodes.map Prod.fst).map ([·]) := by simp
    rw [hplaces]
    exact hdistinct.map fun _ _ h => by simpa using h
  placed := by
    intro e he
    obtain ⟨x, hx, rfl⟩ := List.mem_map.1 he
    exact ⟨x.1, [], rfl, hnames x hx, .inl rfl⟩

theorem get?_shallow {nodes : List (String × Node)} (hdistinct : (nodes.map Prod.fst).Nodup)
    (hnames : ∀ x ∈ nodes, isFileName x.1 = true) {name : String} {dir : Location} {node : Node} :
    (shallow nodes hdistinct hnames).get? (name :: dir) = some node ↔ dir = [] ∧ (name, node) ∈ nodes := by
  rw [get?_eq_some_iff (by simp)]
  simp only [shallow, List.mem_map, Prod.mk.injEq, List.cons.injEq]
  constructor
  · rintro ⟨x, hx, ⟨rfl, rfl⟩, rfl⟩
    exact ⟨rfl, hx⟩
  · rintro ⟨rfl, hx⟩
    exact ⟨_, hx, ⟨rfl, rfl⟩, rfl⟩

end FileTree

/-! ## Names that a file system accepts -/

structure FileName (name : String) : Prop where
  ne_empty : name ≠ ""
  ne_dot : name ≠ "."
  ne_dots : name ≠ ".."
  no_slash : '/' ∉ name.toList
  no_nul : '\x00' ∉ name.toList
  short : name.utf8ByteSize ≤ maxNameLength

theorem FileName.of_isFileName {name : String} (h : isFileName name = true) : FileName name := by
  simp only [isFileName, Bool.and_eq_true, bne_iff_ne, Bool.not_eq_true', List.contains_eq_mem,
    decide_eq_false_iff_not, decide_eq_true_eq] at h
  obtain ⟨⟨⟨⟨⟨hempty, hdot⟩, hdots⟩, hslash⟩, hnul⟩, hshort⟩ := h
  exact ⟨hempty, hdot, hdots, hslash, hnul, hshort⟩

/-! ## Names on a way that can be followed -/

namespace FileTree

/-- A strict reading comes through only if no piece holds a character that no name can hold. -/
theorem no_nul_of_followWith {t : FileTree} {enter : Location → List String → Except Fault Location} {here place : Location}
    {pieces : List String} (h : t.followWith enter here pieces = .ok place) :
    ∀ piece ∈ pieces, '\x00' ∉ piece.toList := by
  induction pieces generalizing here with
  | nil => exact fun _ hmem => absurd hmem List.not_mem_nil
  | cons piece rest ih =>
    have hrest : ∀ here, t.followWith enter here rest = .ok place → '\x00' ∉ piece.toList →
        ∀ other ∈ piece :: rest, '\x00' ∉ other.toList := by
      intro here hfollow hpiece other hother
      rcases List.mem_cons.1 hother with rfl | hother
      · exact hpiece
      · exact ih hfollow other hother
    have hlisted : ∀ node, t.get? (piece :: here) = some node → '\x00' ∉ piece.toList := fun node hget =>
      (FileName.of_isFileName (parent_isDir hget).2).no_nul
    simp only [followWith] at h
    split at h
    · cases h
    · split at h
      · next hdot => exact hrest _ h (by rcases hdot with rfl | rfl <;> decide)
      · split at h
        · next hdots => exact hrest _ h (by rw [hdots]; decide)
        · split at h
          · cases h
          · split at h
            · next target hget =>
              split at h
              · exact hrest _ h (hlisted _ hget)
              · cases h
            · next node _ hget => exact hrest _ h (hlisted _ hget)
            · cases h

end FileTree

/-! ## Paths of entries -/

namespace Path

/-- The path without its last name. -/
def parent (p : Path) : Path := { p with names := p.names.dropLast }

@[simp] theorem names_child (p : Path) (name : String) : (p.child name).names = p.names ++ [name] := rfl

@[simp] theorem anchor_child (p : Path) (name : String) : (p.child name).anchor = p.anchor := rfl

@[simp] theorem name_child (p : Path) (name : String) : (p.child name).name = name := by
  simp [Path.name, List.getLastD_eq_getLast?]

@[simp] theorem parent_child (p : Path) (name : String) : (p.child name).parent = p := by
  simp [parent]

theorem child_inj {p q : Path} {m n : String} : p.child m = q.child n ↔ p = q ∧ m = n := by
  constructor
  · intro h
    exact ⟨by simpa using congrArg parent h, by simpa using congrArg Path.name h⟩
  · rintro ⟨rfl, rfl⟩
    rfl

theorem hasNul_child {p : Path} {name : String} (hp : p.hasNul = false) (hname : FileName name) :
    (p.child name).hasNul = false := by
  simp only [hasNul, names_child, List.any_append, Bool.or_eq_false_iff] at hp ⊢
  exact ⟨hp, by simp [hname.no_nul]⟩

end Path

namespace FileSystem

theorem locate_child {fs : FileSystem} {p : Path} {dir : Location} (name : String) (h : fs.locate p = .ok dir) :
    fs.locate (p.child name) = fs.tree.follow dir [name] := by
  have hp : fs.tree.follow (fs.start p) p.names = .ok dir := h
  have hstart : fs.start (p.child name) = fs.start p := rfl
  rw [locate, hstart, Path.names_child, FileTree.follow_append, hp]
  rfl

theorem place_spot (fs : FileSystem) (p : Path) : (fs.spot p).place = fs.start p := by
  unfold spot start
  split <;> rfl

theorem resolve_of_locate {fs : FileSystem} {p : Path} {place : Location} (h : fs.locate p = .ok place) :
    fs.resolve p = .ok place := by
  have hfollow : fs.tree.follow (fs.spot p).place p.names = .ok place := by rwa [place_spot]
  obtain ⟨s, hs, rfl⟩ := FileTree.resolve_of_follow hfollow
  unfold resolve
  rw [hs]

theorem hasNul_of_locate {fs : FileSystem} {p : Path} {place : Location} (h : fs.locate p = .ok place) :
    p.hasNul = false := by
  have hnames := FileTree.no_nul_of_followWith h
  unfold Path.hasNul
  rw [List.any_eq_false]
  intro name hname
  simpa using hnames name hname

end FileSystem

end TestDiscovery
