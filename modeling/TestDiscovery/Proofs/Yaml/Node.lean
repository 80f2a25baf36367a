-- SUMMARY: The nodes of a modest text: implied tags only, and no nesting that is too deep.
import TestDiscovery.Proofs.Yaml.Event
import TestDiscovery.Yaml.Node

/-!
# Nodes of modest texts

The nodes have the tags of their events, so a scalar has an implied tag and a collection that of a sequence or of a
mapping. As many collections can be open as have started, which are too few to be nested too deep.
-/

namespace TestDiscovery.Yaml

def Content.isScalar : Content → Bool
  | scalar _ => true
  | _ => false

/-- A scalar with an implied tag, or a collection with the tag of one. -/
def Node.IsModest (node : Node) : Prop :=
  match node.content with
  | .scalar text => Tag.IsImplied node.tag text
  | _ => node.tag = Tag.seq ∨ node.tag = Tag.map

theorem Node.IsModest.collection {node : Node} (h : node.IsModest) (hcollection : node.content.isScalar = false)
    {content : Content} (hcontent : content.isScalar = false) : Node.IsModest { node with content } := by
  obtain ⟨tag, old⟩ := node
  cases old with
  | scalar text => cases hcollection
  | _ =>
    cases content with
    | scalar text => cases hcontent
    | _ => exact h

/-- What holds of the elements of an array and of the one that is changed holds after the change. -/
theorem forall_mem_modify {α : Type} {P : α → Prop} {a : Array α} {i : Nat} {f : α → α} (h : ∀ x ∈ a, P x)
    (hf : ∀ x, a[i]? = some x → P (f x)) : ∀ x ∈ a.modify i f, P x := by
  intro x hx
  obtain ⟨j, hj⟩ := Array.getElem?_of_mem hx
  rw [Array.getElem?_modify] at hj
  split at hj
  · next hij =>
    obtain ⟨old, hold, rfl⟩ := Option.map_eq_some_iff.1 hj
    exact hf old (hij ▸ hold)
  · exact h x (Array.mem_of_getElem? hj)

namespace Graph

def Frame.id : Frame → Nat
  | sequence id _ => id
  | mapping id _ _ => id

namespace Builder

/-- The numbers of the collections that have started and not ended. -/
def started (b : Builder) : List Nat := b.frames.map Frame.id

/-- All nodes are modest, and the open ones are collections. -/
structure IsModest (b : Builder) : Prop where
  nodes : ∀ node ∈ b.nodes, node.IsModest
  started : ∀ id ∈ b.started, ∃ node, b.nodes[id]? = some node ∧ node.content.isScalar = false

variable {b : Builder} {id : Nat}

@[simp] theorem place_nodes (b : Builder) (id : Nat) : (b.place id).nodes = b.nodes := by
  unfold place
  split <;> rfl

@[simp] theorem place_started (b : Builder) (id : Nat) : (b.place id).started = b.started := by
  unfold place started
  split <;> simp [*, Frame.id]

theorem IsModest.place (h : b.IsModest) (id : Nat) : (b.place id).IsModest where
  nodes := by
    rw [place_nodes]
    exact h.nodes
  started := by
    rw [place_started, place_nodes]
    exact h.started

theorem create_yields (h : b.IsModest) (anchor : Option String) (node : Node) (hnode : node.IsModest) :
    Yields Error.IsInvalid (fun (id, b') => b'.IsModest ∧ b'.frames = b.frames ∧ b'.nodes[id]? = some node)
      (b.create anchor node) := by
  have hnodes : ∀ old ∈ b.nodes.push node, old.IsModest := by
    intro old hold
    rcases Array.mem_push.1 hold with hold | rfl
    · exact h.nodes old hold
    · exact hnode
  have hstarted : ∀ id ∈ b.started, ∃ old, (b.nodes.push node)[id]? = some old ∧ old.content.isScalar = false := by
    intro id hid
    obtain ⟨old, hold, hcollection⟩ := h.started id hid
    obtain ⟨hlt, -⟩ := Array.getElem?_eq_some_iff.1 hold
    refine ⟨old, ?_, hcollection⟩
    rw [Array.getElem?_push, if_neg (Nat.ne_of_lt hlt)]
    exact hold
  unfold create
  dsimp only
  split
  · exact ⟨⟨hnodes, hstarted⟩, rfl, Array.getElem?_push_size⟩
  · exact Yields.ite (fun _ => trivial) fun _ => ⟨⟨hnodes, hstarted⟩, rfl, Array.getElem?_push_size⟩

theorem start_yields (h : b.IsModest) (hdepth : b.frames.length < maxDepth) (anchor : Option String) {node : Node}
    (hnode : node.IsModest) (hcollection : node.content.isScalar = false) (frame : Nat → Frame)
    (hframe : ∀ id, (frame id).id = id) :
    Yields Error.IsInvalid (fun b' => b'.IsModest ∧ b'.frames.length ≤ b.frames.length + 1)
      (b.start anchor node frame) := by
  unfold start
  rw [if_neg (Nat.not_le.2 hdepth)]
  refine (create_yields h anchor node hnode).bind fun created hcreated => ?_
  obtain ⟨id, b'⟩ := created
  obtain ⟨hmodest, hframes, hid⟩ := hcreated
  refine ⟨⟨hmodest.nodes, ?_⟩, ?_⟩
  · intro other hother
    rcases List.mem_cons.1 hother with rfl | hother
    · exact ⟨node, by rw [hframe]; exact hid, hcollection⟩
    · exact hmodest.started other hother
  · exact Nat.le_of_eq (congrArg (· + 1) (congrArg List.length hframes))

/-- A collection ends and gets its parts. -/
theorem finish_spec (h : b.IsModest) {frame : Frame} {rest : List Frame} (hframes : b.frames = frame :: rest)
    {content : Content} (hcontent : content.isScalar = false) :
    (b.finish frame.id content rest).IsModest ∧ (b.finish frame.id content rest).frames.length ≤ b.frames.length := by
  have hstarted : b.started = frame.id :: rest.map Frame.id := by rw [started, hframes, List.map_cons]
  refine ⟨IsModest.place ⟨?_, ?_⟩ _, ?_⟩
  · dsimp only
    refine forall_mem_modify h.nodes fun node hnode => ?_
    obtain ⟨old, hold, hcollection⟩ := h.started frame.id (hstarted ▸ List.mem_cons_self)
    obtain rfl : node = old := Option.some.inj (hnode.symm.trans hold)
    exact (h.nodes node (Array.mem_of_getElem? hnode)).collection hcollection hcontent
  · intro id hid
    obtain ⟨old, hold, hcollection⟩ := h.started id (hstarted ▸ List.mem_cons_of_mem _ hid)
    dsimp only
    rw [Array.getElem?_modify, hold]
    split
    · exact ⟨_, rfl, hcontent⟩
    · exact ⟨old, rfl, hcollection⟩
  · have hlength := congrArg List.length (place_started { b with
      nodes := b.nodes.modify frame.id fun n => { n with content }, frames := rest } frame.id)
    rw [started, started, List.length_map, List.length_map] at hlength
    rw [hframes, List.length_cons, finish, hlength]
    exact Nat.le_succ _

theorem step_yields (h : b.IsModest) {e : Event} (he : e.IsModest)
    (hdepth : b.frames.length + e.opens.toNat ≤ maxDepth) :
    Yields Error.IsInvalid (fun b' => b'.IsModest ∧ b'.frames.length ≤ b.frames.length + e.opens.toNat)
      (b.step e) := by
  have hplace (b : Builder) (id : Nat) : (b.place id).frames.length = b.frames.length := by
    simpa [started] using congrArg List.length (b.place_started id)
  cases e with
  | streamEnd => exact ⟨h, Nat.le_refl _⟩
  | documentStart => exact Yields.ite (fun _ => trivial) fun _ => ⟨h, Nat.le_refl _⟩
  | documentEnd => exact ⟨h, Nat.le_refl _⟩
  | reference name =>
    unfold step
    dsimp only
    split
    · next id _ => exact ⟨h.place id, Nat.le_of_eq (hplace b id)⟩
    · trivial
  | scalar anchor tag text =>
    refine (create_yields h anchor ⟨tag, .scalar text⟩ he).bind fun created hcreated => ?_
    obtain ⟨id, b'⟩ := created
    obtain ⟨hmodest, hframes, -⟩ := hcreated
    exact ⟨hmodest.place id, Nat.le_of_eq ((hplace b' id).trans (congrArg List.length hframes))⟩
  | sequenceStart anchor tag =>
    have hnode : Node.IsModest ⟨tag, .sequence []⟩ := .inl he
    exact start_yields h hdepth anchor hnode rfl (fun id => .sequence id []) fun _ => rfl
  | mappingStart anchor tag =>
    have hnode : Node.IsModest ⟨tag, .mapping []⟩ := .inr he
    exact start_yields h hdepth anchor hnode rfl (fun id => .mapping id [] none) fun _ => rfl
  | sequenceEnd =>
    unfold step
    dsimp only
    split
    · next id items rest hframes => exact finish_spec h hframes rfl
    · next id pairs key rest hframes => exact finish_spec h hframes rfl
    · trivial
  | mappingEnd =>
    unfold step
    dsimp only
    split
    · next id items rest hframes => exact finish_spec h hframes rfl
    · next id pairs key rest hframes => exact finish_spec h hframes rfl
    · trivial

theorem foldlM_step_yields {events : List Event} (h : b.IsModest) (hevents : ∀ e ∈ events, e.IsModest)
    (hdepth : b.frames.length + events.countP Event.opens ≤ maxDepth) :
    Yields Error.IsInvalid IsModest (events.foldlM step b) := by
  induction events generalizing b with
  | nil => exact h
  | cons e events ih =>
    rw [List.countP_cons] at hdepth
    have hopens : (if e.opens = true then 1 else 0) = e.opens.toNat := by cases e.opens <;> rfl
    rw [hopens] at hdepth
    obtain ⟨he, hevents⟩ := List.forall_mem_cons.1 hevents
    rw [List.foldlM_cons]
    refine (step_yields h he (by omega)).bind fun b' hb' => ?_
    exact ih hb'.1 hevents (by omega)

end Builder

theorem ofEvents_yields {events : List Event} {fault : Option Error} {n : Nat} (h : Event.IsModestRun n events fault)
    (hn : n ≤ maxDepth) :
    Yields Error.IsInvalid (fun g => ∀ node ∈ g.nodes, node.IsModest) (ofEvents events fault) := by
  have hstart : Builder.IsModest {} := ⟨by simp, by simp [Builder.started]⟩
  have hfew := h.few
  refine (Builder.foldlM_step_yields hstart h.modest ?_).bind fun b hb => ?_
  · simp only [List.length_nil]
    omega
  · cases fault with
    | some e => exact h.fault e rfl
    | none => exact hb.nodes

end Graph

/-- The nodes of a modest text are modest, and what is refused breaks a rule. -/
theorem graph_yields {text : List Char} (htext : IsModest text) :
    Yields Error.IsInvalid (fun g => ∀ node ∈ g.nodes, node.IsModest) (graph text) := by
  have htokens := tokens_isModestStream htext
  have hevents := Event.ofTokens_isModestRun htokens
  unfold graph
  refine Yields.ite (fun _ => trivial) fun _ => ?_
  exact Graph.ofEvents_yields hevents (by decide)

end TestDiscovery.Yaml
