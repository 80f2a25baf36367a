-- SUMMARY: The nodes of a YAML document, as a graph that references share.
import TestDiscovery.Yaml.Event

/-!
# Nodes

The nodes of a document are numbered in the order in which they start, and a collection holds the numbers of its
parts. A reference stands for the number of the node that the anchor marks, so a node can have several places, and a
collection can be a part of itself. There is one document, or none.
-/

namespace TestDiscovery.Yaml

inductive Content where
  | scalar (text : String)
  | sequence (items : List Nat)
  | mapping (pairs : List (Nat × Nat))
deriving DecidableEq, Repr

structure Node where
  tag : String
  content : Content
deriving DecidableEq, Repr

/-- The nodes of a text and the number of the outermost one, if there is any. -/
structure Graph where
  nodes : Array Node := #[]
  root : Option Nat := none
deriving Repr

namespace Graph

/-- A collection that has started: its number and its parts so far, the last one first. -/
inductive Frame where
  | sequence (id : Nat) (items : List Nat)
  | mapping (id : Nat) (pairs : List (Nat × Nat)) (key : Option Nat)

/-- Nodes up to some event. -/
structure Builder where
  nodes : Array Node := #[]
  anchors : List (String × Nat) := []
  frames : List Frame := []
  root : Option Nat := none

/-- How deep collections may be nested. -/
def maxDepth : Nat := 490

namespace Builder

/-- Puts a node into the innermost open collection, or takes it as the outermost node. -/
def place (b : Builder) (id : Nat) : Builder :=
  match b.frames with
  | [] => { b with root := some id }
  | .sequence s items :: rest => { b with frames := .sequence s (id :: items) :: rest }
  | .mapping m pairs none :: rest => { b with frames := .mapping m pairs (some id) :: rest }
  | .mapping m pairs (some key) :: rest => { b with frames := .mapping m ((key, id) :: pairs) none :: rest }

/-- A new node with its anchor, which no other node may have. -/
def create (b : Builder) (anchor : Option String) (node : Node) : Except Error (Nat × Builder) :=
  let id := b.nodes.size
  let b := { b with nodes := b.nodes.push node }
  match anchor with
  | none => .ok (id, b)
  | some name =>
    if (b.anchors.lookup name).isSome then .error .badReference
    else .ok (id, { b with anchors := (name, id) :: b.anchors })

/-- Starts a collection. -/
def start (b : Builder) (anchor : Option String) (node : Node) (frame : Nat → Frame) : Except Error Builder := do
  if maxDepth ≤ b.frames.length then .error .tooDeep
  let (id, b) ← b.create anchor node
  return { b with frames := frame id :: b.frames }

/-- Gives a finished collection its parts. -/
def finish (b : Builder) (id : Nat) (content : Content) (rest : List Frame) : Builder :=
  { b with nodes := b.nodes.modify id fun n => { n with content }, frames := rest }.place id

/-- The builder after an event. A second document is not accepted. -/
def step (b : Builder) : Event → Except Error Builder
  | .reference name =>
    match b.anchors.lookup name with
    | some id => .ok (b.place id)
    | none => .error .badReference
  | .scalar anchor tag text => do
    let (id, b) ← b.create anchor ⟨tag, .scalar text⟩
    return b.place id
  | .sequenceStart anchor tag => b.start anchor ⟨tag, .sequence []⟩ fun id => .sequence id []
  | .mappingStart anchor tag => b.start anchor ⟨tag, .mapping []⟩ fun id => .mapping id [] none
  | .sequenceEnd | .mappingEnd =>
    match b.frames with
    | .sequence id items :: rest => .ok (b.finish id (.sequence items.reverse) rest)
    | .mapping id pairs _ :: rest => .ok (b.finish id (.mapping pairs.reverse) rest)
    | [] => .error .misplacedToken
  | .documentStart => if b.root.isSome then .error .badReference else .ok b
  | .documentEnd | .streamEnd => .ok b

end Builder

/-- The nodes of events; `fault` is what ended the events. -/
def ofEvents (events : List Event) (fault : Option Error) : Except Error Graph := do
  let b ← events.foldlM Builder.step {}
  match fault with
  | some e => .error e
  | none => return { nodes := b.nodes, root := b.root }

end Graph

/-- The nodes of a text. -/
def graph (text : List Char) : Except Error Graph :=
  if !text.all isPrintable then .error .unprintable
  else
    let (tokens, fault) := tokens text
    let (events, fault) := Event.ofTokens tokens fault
    Graph.ofEvents events fault

end TestDiscovery.Yaml
