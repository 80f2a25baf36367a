-- SUMMARY: File trees with directories, files and links, and the operations that build them.
/-!
# File trees

A tree is a finite set of places with what is there: a file with its bytes, a directory, or a link with the
text of its target. The root is a directory without being listed. Every place is listed at most once, and
lies in a directory of the tree, under a name that a file system accepts.
-/

namespace TestDiscovery

/-- A place: the names from it up to the root, its own name first. -/
abbrev Location := List String

inductive Node where
  | file (bytes : List UInt8)
  | dir
  | link (target : String)
deriving DecidableEq, Repr

/-- The longest name in bytes. -/
def maxNameLength : Nat := 255

/-- Whether a file system accepts a name. -/
def isFileName (name : String) : Bool :=
  name != "" && name != "." && name != ".." && !name.toList.contains '/' && !name.toList.contains '\x00' &&
    name.utf8ByteSize ≤ maxNameLength

structure FileTree where
  entries : List (Location × Node) := []
  /-- No place is listed twice. -/
  distinct : (entries.map Prod.fst).Nodup := by decide
  /-- Every place has a name and lies in a directory. -/
  placed : ∀ e ∈ entries, ∃ name parent, e.1 = name :: parent ∧ isFileName name = true ∧
    (parent = [] ∨ (parent, Node.dir) ∈ entries) := by simp

namespace FileTree

/-- What is at a place. -/
def get? (t : FileTree) (l : Location) : Option Node :=
  if l = [] then some .dir else (t.entries.find? fun e => e.1 = l).map Prod.snd

/-- Whether a place is a directory, links not followed. -/
def isDirAt (t : FileTree) (l : Location) : Bool := t.get? l == some .dir

/-- The name of a place inside a directory. -/
def nameIn? (l : Location) : Location → Option String
  | [] => none
  | name :: parent => if parent = l then some name else none

/-- The names in a directory, in the order of their characters. -/
def names (t : FileTree) (l : Location) : List String :=
  (t.entries.filterMap fun e => nameIn? l e.1).mergeSort fun a b => decide (a ≤ b)

/-- The directories of the tree below the root. -/
def directories (t : FileTree) : List Location :=
  (t.entries.filter fun e => e.2 = .dir).map Prod.fst

-- ---------------------------------------------------------------------------
-- Look-up
-- ---------------------------------------------------------------------------

theorem get?_eq_some_iff {t : FileTree} {l : Location} {n : Node} (hl : l ≠ []) :
    t.get? l = some n ↔ (l, n) ∈ t.entries := by
  have key : ∀ es : List (Location × Node), (es.map Prod.fst).Nodup →
      ((es.find? fun e => e.1 = l).map Prod.snd = some n ↔ (l, n) ∈ es) := by
    intro es hd
    induction es with
    | nil => simp
    | cons e es ih =>
      obtain ⟨k, m⟩ := e
      simp only [List.map_cons, List.nodup_cons, List.mem_map, not_exists, not_and] at hd
      by_cases hk : k = l
      · subst hk
        have hn : (k, n) ∉ es := fun h => hd.1 _ h rfl
        simp [hn, eq_comm]
      · simp [hk, ih hd.2, Ne.symm hk]
  rw [get?, if_neg hl, key _ t.distinct]

theorem parent_isDir {t : FileTree} {name : String} {l : Location} {n : Node}
    (h : t.get? (name :: l) = some n) : t.get? l = some .dir ∧ isFileName name = true := by
  rw [get?_eq_some_iff (by simp)] at h
  obtain ⟨name', parent, heq, hv, hp⟩ := t.placed _ h
  cases heq
  refine ⟨?_, hv⟩
  rcases hp with rfl | hp
  · rfl
  · by_cases hl : l = []
    · subst hl; rfl
    · exact (get?_eq_some_iff hl).2 hp

-- ---------------------------------------------------------------------------
-- Building
-- ---------------------------------------------------------------------------

/-- The tree without a place and all that lies below it. -/
def remove (t : FileTree) (l : Location) : FileTree where
  entries := t.entries.filter fun e => !l.isSuffixOf e.1
  distinct := (List.Sublist.map _ List.filter_sublist).nodup t.distinct
  placed := by
    intro e he
    obtain ⟨hm, hs⟩ := List.mem_filter.1 he
    obtain ⟨name, parent, heq, hv, hp⟩ := t.placed e hm
    refine ⟨name, parent, heq, hv, hp.imp_right fun h => List.mem_filter.2 ⟨h, ?_⟩⟩
    simp only [Bool.not_eq_true', ← Bool.not_eq_true, List.isSuffixOf_iff_suffix, heq] at hs ⊢
    exact fun hsuf => hs (hsuf.trans (List.suffix_cons name parent))

/-- The tree with a new place, if the name is acceptable, the directory is there and the place is free. -/
def insert? (t : FileTree) (parent : Location) (name : String) (n : Node) : Option FileTree :=
  if h : isFileName name = true ∧ t.get? parent = some .dir ∧ t.get? (name :: parent) = none then
    some {
      entries := t.entries ++ [(name :: parent, n)]
      distinct := by
        rw [List.map_append, List.nodup_append]
        refine ⟨t.distinct, by simp, ?_⟩
        intro a ha b hb hab
        obtain ⟨e, he, rfl⟩ := List.mem_map.1 ha
        simp only [List.map_cons, List.map_nil, List.mem_singleton] at hb
        subst hb
        have hs : t.get? (name :: parent) = some e.2 :=
          (get?_eq_some_iff (by simp)).2 (hab ▸ he)
        rw [h.2.2] at hs
        exact absurd hs (by simp)
      placed := by
        intro e he
        rcases List.mem_append.1 he with he | he
        · obtain ⟨name', parent', heq, hv, hp⟩ := t.placed e he
          exact ⟨name', parent', heq, hv, hp.imp_right (List.mem_append_left _)⟩
        · rw [List.mem_singleton] at he
          subst he
          refine ⟨name, parent, rfl, h.1, ?_⟩
          by_cases hp : parent = []
          · exact .inl hp
          · exact .inr (List.mem_append_left _ ((get?_eq_some_iff hp).1 h.2.1)) }
  else none

end FileTree

end TestDiscovery
