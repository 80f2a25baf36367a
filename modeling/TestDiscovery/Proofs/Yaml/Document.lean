-- SUMMARY: A modest text has a document, or breaks a rule.
import TestDiscovery.Proofs.Yaml.Atom
import TestDiscovery.Proofs.Yaml.Node
import TestDiscovery.Yaml.Document

/-!
# Documents of modest texts

All that making values does to the nodes is to settle their keys and to replace pairs of mappings, so they stay modest.
Hence there are no merge keys, and each scalar is read under an implied tag.
-/

namespace TestDiscovery.Yaml.Document

namespace Maker

/-- All nodes are modest. -/
def IsModest (m : Maker) : Prop := ∀ node ∈ m.nodes, node.IsModest

variable {m : Maker} {id fuel : Nat} {merged pairs : List (Nat × Nat)}

/-- What a step gives is modest again, and what it refuses breaks a rule. -/
def StaysModest (step : Except Error Maker) : Prop := Yields Error.IsInvalid IsModest step

theorem contentOf_eq_some {content : Content} (h : m.contentOf id = content) (hne : content.isScalar = false) :
    ∃ node, m.nodes[id]? = some node ∧ node.content = content := by
  unfold contentOf at h
  cases hnode : m.nodes[id]? with
  | none =>
    rw [hnode] at h
    subst h
    cases hne
  | some node =>
    rw [hnode] at h
    exact ⟨node, rfl, h⟩

/-! ## Merging -/

theorem ne_merge_of_collection {tag : String} (h : tag = Tag.seq ∨ tag = Tag.map) : tag ≠ Tag.merge := by
  rcases h with rfl | rfl <;> decide

theorem ne_value_of_collection {tag : String} (h : tag = Tag.seq ∨ tag = Tag.map) : tag ≠ Tag.value := by
  rcases h with rfl | rfl <;> decide

theorem IsModest.tagOf_ne_merge (h : m.IsModest) (id : Nat) : m.tagOf id ≠ Tag.merge := by
  unfold tagOf
  cases hnode : m.nodes[id]? with
  | none => decide
  | some node =>
    have hmodest := h node (Array.mem_of_getElem? hnode)
    obtain ⟨tag, content⟩ := node
    cases content with
    | scalar text =>
      have himplied : Tag.IsImplied tag text := hmodest
      exact himplied.ne_merge
    | sequence items => exact ne_merge_of_collection hmodest
    | mapping pairs => exact ne_merge_of_collection hmodest

/-- A key gets the tag of a text where it is written as an equals sign. -/
def settleKey (node : Node) : Node := if node.tag = Tag.value then { node with tag := Tag.str } else node

theorem settleKey_content (node : Node) : (settleKey node).content = node.content := by
  unfold settleKey
  split <;> rfl

theorem settleKey_isModest {node : Node} (h : node.IsModest) : (settleKey node).IsModest := by
  obtain ⟨tag, content⟩ := node
  unfold settleKey
  split
  · next hvalue =>
    obtain rfl : tag = Tag.value := hvalue
    cases content with
    | scalar text => exact .inl rfl
    | sequence items => exact absurd rfl (ne_value_of_collection h)
    | mapping pairs => exact absurd rfl (ne_value_of_collection h)
  · exact h

theorem settleKeys_cons (m : Maker) (pair : Nat × Nat) (pairs : List (Nat × Nat)) :
    m.settleKeys (pair :: pairs) = ({ m with nodes := m.nodes.modify pair.1 settleKey } : Maker).settleKeys pairs := rfl

theorem IsModest.settleKeys (h : m.IsModest) (pairs : List (Nat × Nat)) : (m.settleKeys pairs).IsModest := by
  induction pairs generalizing m with
  | nil => exact h
  | cons pair pairs ih =>
    rw [settleKeys_cons]
    exact ih (forall_mem_modify h fun node hnode => settleKey_isModest (h node (Array.mem_of_getElem? hnode)))

theorem contentOf_settleKeys (m : Maker) (pairs : List (Nat × Nat)) (id : Nat) :
    (m.settleKeys pairs).contentOf id = m.contentOf id := by
  induction pairs generalizing m with
  | nil => rfl
  | cons pair pairs ih =>
    rw [settleKeys_cons, ih]
    unfold contentOf
    dsimp only
    rw [Array.getElem?_modify]
    split
    · cases m.nodes[id]? with
      | none => rfl
      | some node => exact congrArg (fun content => (some content).getD (.scalar "")) (settleKey_content node)
    · rfl

theorem IsModest.setPairs (h : m.IsModest) (hmapping : m.contentOf id = .mapping pairs) (pairs' : List (Nat × Nat)) :
    (m.setPairs id pairs').IsModest := by
  unfold Maker.setPairs Maker.IsModest
  dsimp only
  refine forall_mem_modify h fun node hnode => ?_
  obtain ⟨node', hnode', hcontent⟩ := contentOf_eq_some hmapping rfl
  obtain rfl : node = node' := Option.some.inj (hnode.symm.trans hnode')
  exact (h node (Array.mem_of_getElem? hnode)).collection (by rw [hcontent]; rfl) rfl

theorem pairsOf_yields (m : Maker) (id : Nat) :
    Yields Error.IsInvalid (fun pairs => m.contentOf id = .mapping pairs) (m.pairsOf id) := by
  unfold pairsOf
  split
  · next pairs hcontent => exact hcontent
  · trivial

/-- Without merge keys, flattening settles the keys and no more. -/
theorem flatten_staysModest (h : m.IsModest) (fuel : Nat) (merged : List (Nat × Nat)) :
    StaysModest (flatten fuel m id merged) := by
  unfold flatten
  refine (m.pairsOf_yields id).bind fun pairs hpairs => ?_
  have hother (pair : Nat × Nat) : decide (m.tagOf pair.1 = Tag.merge) = false := by
    simpa using h.tagOf_ne_merge pair.1
  rw [List.findIdx?_eq_none_iff.2 fun pair _ => hother pair]
  exact (h.settleKeys pairs).setPairs ((m.contentOf_settleKeys pairs id).trans hpairs) _

/-! ## Making values -/

/-- A node whose tag is that of an atom is a scalar. -/
theorem IsModest.scalar_of_atom (h : m.IsModest) (hcollection : emptyCollection? (m.tagOf id) = none)
    {read : Except Error Atom} (hatom : Atom.ofText? (m.tagOf id) "" = some read) :
    ∃ text, m.contentOf id = .scalar text ∧ Tag.IsImplied (m.tagOf id) text := by
  unfold tagOf contentOf at *
  cases hnode : m.nodes[id]? with
  | none =>
    rw [hnode] at hatom
    cases hatom
  | some node =>
    have hmodest := h node (Array.mem_of_getElem? hnode)
    rw [hnode] at hcollection
    obtain ⟨tag, content⟩ := node
    cases content with
    | scalar text => exact ⟨text, rfl, hmodest⟩
    | sequence items => rcases hmodest with rfl | rfl <;> cases hcollection
    | mapping pairs => rcases hmodest with rfl | rfl <;> cases hcollection

theorem make_staysModest (h : m.IsModest) (id : Nat) : StaysModest (m.make id) := by
  unfold make
  refine Yields.ite (fun _ => h) fun _ => ?_
  split
  · exact h
  · next hcollection =>
    split
    · trivial
    · next read hatom =>
      obtain ⟨text, hscalar, himplied⟩ := h.scalar_of_atom hcollection hatom
      have htext : m.scalarText (m.nodes.size + 1) id = .ok text := by
        unfold scalarText
        rw [hscalar]
      rw [htext]
      refine Yields.ite (fun _ => trivial) fun _ => ?_
      split
      · trivial
      · next e hread => exact Atom.ofText?_failsOnly himplied hread
      · exact h

theorem makeAll_staysModest (h : m.IsModest) (ids : List Nat) : StaysModest (m.makeAll ids) :=
  Yields.foldlM h fun _ id _ hm => make_staysModest hm id

theorem makeKey_yields (h : m.IsModest) (id : Nat) :
    Yields Error.IsInvalid (fun (_, m') => m'.IsModest) (m.makeKey id) := by
  unfold makeKey
  refine (make_staysModest h id).bind fun m' hm' => ?_
  split
  · exact hm'
  · trivial

theorem makePairs_yields (h : m.IsModest) (id : Nat) :
    Yields Error.IsInvalid (fun (_, m') => m'.IsModest) (m.makePairs id) := by
  unfold makePairs
  refine (m.pairsOf_yields id).bind fun _ _ => ?_
  refine (flatten_staysModest h m.mergeCount []).bind fun m' hm' => ?_
  refine (m'.pairsOf_yields id).bind fun pairs _ => ?_
  refine Yields.foldlM hm' fun made pair _ hmade => ?_
  refine (makeKey_yields hmade pair.1).bind fun key hkey => ?_
  exact (make_staysModest hkey pair.2).bind fun m'' hm'' => hm''

theorem makeEntries_yields (h : m.IsModest) (id : Nat) :
    Yields Error.IsInvalid (fun (_, m') => m'.IsModest) (m.makeEntries id) := by
  unfold makeEntries
  split
  · refine Yields.foldlM h fun made item _ hmade => ?_
    refine (made.2.pairsOf_yields item).bind fun pairs _ => ?_
    split
    · exact (makeAll_staysModest hmade _).bind fun m' hm' => hm'
    · trivial
  · trivial

theorem fill_staysModest (h : m.IsModest) (id : Nat) : StaysModest (m.fill id) := by
  unfold fill
  split
  · split
    · exact (makeAll_staysModest h _).bind fun m' hm' => hm'
    · trivial
  · exact (makePairs_yields h id).bind fun made hmade => hmade
  · exact (makePairs_yields h id).bind fun made hmade => hmade
  · exact (makeEntries_yields h id).bind fun made hmade => hmade
  · exact h

theorem run_staysModest (h : m.IsModest) (fuel : Nat) : StaysModest (m.run fuel) := by
  induction fuel generalizing m with
  | zero => exact h
  | succ fuel ih =>
    unfold run
    split
    · next fuel' id rest hfuel hwaiting =>
      cases hfuel
      have hrest : IsModest { m with waiting := rest } := h
      exact (fill_staysModest hrest id).bind fun m' hm' => ih hm'
    · exact h

end Maker

/-! ## The document -/

theorem ofGraph_failsOnly {g : Graph} (h : ∀ node ∈ g.nodes, node.IsModest) :
    FailsOnly Error.IsInvalid (ofGraph g) := by
  unfold ofGraph
  split
  · trivial
  · next root _ =>
    have hstart : Maker.IsModest { nodes := g.nodes, values := .replicate g.nodes.size none } := h
    refine (Maker.make_staysModest hstart root).bind fun m hm => ?_
    exact (Maker.run_staysModest hm _).bind fun _ _ => trivial

theorem ofText_failsOnly {text : List Char} (h : Yaml.IsModest text) : FailsOnly Error.IsInvalid (ofText text) :=
  (graph_yields h).bind fun _ hg => ofGraph_failsOnly hg

end TestDiscovery.Yaml.Document
