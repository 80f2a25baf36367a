-- SUMMARY: Values of YAML documents, made from the nodes by their tags.
import TestDiscovery.Yaml.Atom
import TestDiscovery.Yaml.Node

/-!
# Documents

A document gives each node its value. Values share parts as their nodes do, so a collection refers to its parts by
number. Only atoms can be keys; of equal keys the first one stays, with the value of the last.

A merge key takes over the pairs of another mapping, or of several, of which the first goes before the others. Pairs
that a mapping has itself come last and so prevail.
-/

namespace TestDiscovery.Yaml

inductive Value where
  | atom (a : Atom)
  | list (items : List Nat)
  | dict (pairs : List (Atom × Nat))
  /-- The members in the order in which the set has them, which need not be that of the text. -/
  | set (members : List Atom)
  /-- A list of pairs. -/
  | pairs (entries : List (Nat × Nat))
deriving DecidableEq, Repr

/-- The values by the numbers of their nodes, and the number of the outermost one. -/
structure Document where
  values : Array (Option Value) := #[]
  root : Option Nat := none
deriving DecidableEq, Repr

/-- The value with a number. -/
def Document.value? (d : Document) (id : Nat) : Option Value := (d.values[id]?).join

/-- The outermost value. A text without nodes has none. -/
def Document.rootValue? (d : Document) : Option Value := d.root.bind d.value?

/-- The part of a mapping under a key that is a text. -/
def lookupText (pairs : List (Atom × Nat)) (key : String) : Option Nat :=
  (pairs.find? fun (k, _) => k == .text key).map Prod.snd

/-- The pairs of a mapping with one more; an equal key keeps its place. -/
def insertPair (pairs : List (Atom × Nat)) (key : Atom) (id : Nat) : List (Atom × Nat) :=
  if pairs.any fun (k, _) => k.same key then
    pairs.map fun (k, v) => if k.same key then (k, id) else (k, v)
  else pairs ++ [(key, id)]

namespace Document

/-- The nodes, the values made so far, and the collections that still wait for their parts, in this order. -/
structure Maker where
  nodes : Array Node
  values : Array (Option Value)
  waiting : List Nat := []

namespace Maker

def tagOf (m : Maker) (id : Nat) : String := (m.nodes[id]?.map (·.tag)).getD ""

def contentOf (m : Maker) (id : Nat) : Content := (m.nodes[id]?.map (·.content)).getD (.scalar "")

def setValue (m : Maker) (id : Nat) (v : Value) : Maker := { m with values := m.values.setIfInBounds id (some v) }

def setPairs (m : Maker) (id : Nat) (pairs : List (Nat × Nat)) : Maker :=
  { m with nodes := m.nodes.modify id fun n => { n with content := .mapping pairs } }

/-- The pairs of a mapping, which the node must be. -/
def pairsOf (m : Maker) (id : Nat) : Except Error (List (Nat × Nat)) :=
  match m.contentOf id with
  | .mapping pairs => .ok pairs
  | _ => .error .badValue

-- ---------------------------------------------------------------------------
-- Merging
-- ---------------------------------------------------------------------------

/-- The keys written as an equals sign become texts. -/
def settleKeys (m : Maker) (pairs : List (Nat × Nat)) : Maker :=
  { m with nodes := pairs.foldl (fun nodes (key, _) =>
      nodes.modify key fun n => if n.tag = Tag.value then { n with tag := Tag.str } else n) m.nodes }

/-- Replaces the merge keys of a mapping by the pairs they stand for; `merged` are those found so far. -/
def flatten (fuel : Nat) (m : Maker) (id : Nat) (merged : List (Nat × Nat)) : Except Error Maker := do
  let pairs ← m.pairsOf id
  match pairs.findIdx? fun (key, _) => m.tagOf key = Tag.merge with
  | none => return (m.settleKeys pairs).setPairs id (merged ++ pairs)
  | some i =>
    match fuel with
    | 0 => .error .tooDeep
    | fuel + 1 =>
      let source := (pairs[i]?.map Prod.snd).getD 0
      let m := m.setPairs id (pairs.eraseIdx i)
      match m.contentOf source with
      | .mapping _ =>
        let m ← flatten fuel m source []
        let found ← m.pairsOf source
        flatten fuel m id (merged ++ found)
      | .sequence items =>
        let (m, found) ← items.foldlM (fun (m, found) item => do
          let m ← flatten fuel m item []
          let pairs ← m.pairsOf item
          return (m, pairs :: found)) (m, ([] : List (List (Nat × Nat))))
        flatten fuel m id (merged ++ found.flatten)
      | .scalar _ => .error .badValue

/-- How many merge keys there are. -/
def mergeCount (m : Maker) : Nat :=
  (m.nodes.toList.map fun n =>
    match n.content with
    | .mapping pairs => pairs.countP fun (key, _) => m.tagOf key = Tag.merge
    | _ => 0).foldl (· + ·) 0

-- ---------------------------------------------------------------------------
-- Making values
-- ---------------------------------------------------------------------------

/-- The text of a scalar. A mapping stands for the scalar under its key written as an equals sign. -/
def scalarText (m : Maker) (fuel : Nat) (id : Nat) : Except Error String :=
  match fuel with
  | 0 => .error .tooDeep
  | fuel + 1 =>
    match m.contentOf id with
    | .scalar text => .ok text
    | .sequence _ => .error .badValue
    | .mapping pairs =>
      match pairs.find? fun (key, _) => m.tagOf key = Tag.value with
      | some (_, target) => m.scalarText fuel target
      | none => .error .badValue

/-- Whether the text of a node is its own. A time must be written as a scalar. -/
def isScalar (m : Maker) (id : Nat) : Bool :=
  match m.contentOf id with
  | .scalar _ => true
  | _ => false

/-- The empty collection for a tag. -/
def emptyCollection? (tag : String) : Option Value :=
  if tag = Tag.seq then some (.list [])
  else if tag = Tag.map then some (.dict [])
  else if tag = Tag.set then some (.set [])
  else if tag = Tag.omap || tag = Tag.pairs then some (.pairs [])
  else none

/-- Makes the value of a node, if it is not made yet: an atom at once, a collection without its parts. -/
def make (m : Maker) (id : Nat) : Except Error Maker :=
  if (m.values[id]?.join).isSome then .ok m
  else
    match emptyCollection? (m.tagOf id) with
    | some v => .ok { m.setValue id v with waiting := m.waiting ++ [id] }
    | none =>
      match Atom.ofText? (m.tagOf id) "" with
      | none => .error .badValue
      | some _ => do
        let text ← m.scalarText (m.nodes.size + 1) id
        if m.tagOf id = Tag.timestamp && !m.isScalar id then .error .badValue
        match Atom.ofText? (m.tagOf id) text with
        | none => .error .badValue
        | some (.error e) => .error e
        | some (.ok a) => return m.setValue id (.atom a)

/-- Makes the values of several nodes in order. -/
def makeAll (m : Maker) (ids : List Nat) : Except Error Maker := ids.foldlM make m

/-- Makes a key, which must be an atom. -/
def makeKey (m : Maker) (id : Nat) : Except Error (Atom × Maker) := do
  let m ← m.make id
  match m.values[id]?.join with
  | some (.atom a) => return (a, m)
  | _ => .error .badValue

/-- Makes the pairs of a mapping. -/
def makePairs (m : Maker) (id : Nat) : Except Error (List (Atom × Nat) × Maker) := do
  let _ ← m.pairsOf id
  let m ← flatten m.mergeCount m id []
  let pairs ← m.pairsOf id
  pairs.foldlM (fun (made, m) (key, value) => do
    let (a, m) ← makeKey m key
    let m ← m.make value
    return (insertPair made a value, m)) ([], m)

/-- Makes a list of pairs: a sequence of mappings with one pair each. -/
def makeEntries (m : Maker) (id : Nat) : Except Error (List (Nat × Nat) × Maker) :=
  match m.contentOf id with
  | .sequence items =>
    items.foldlM (fun (made, m) item => do
      match ← m.pairsOf item with
      | [(key, value)] =>
        let m ← m.makeAll [key, value]
        return (made ++ [(key, value)], m)
      | _ => .error .badValue) ([], m)
  | _ => .error .badValue

/-- Gives a collection its parts. -/
def fill (m : Maker) (id : Nat) : Except Error Maker :=
  match m.values[id]?.join with
  | some (.list _) =>
    match m.contentOf id with
    | .sequence items => do
      let m ← m.makeAll items
      return m.setValue id (.list items)
    | _ => .error .badValue
  | some (.dict _) => do
    let (pairs, m) ← m.makePairs id
    return m.setValue id (.dict pairs)
  | some (.set _) => do
    let (pairs, m) ← m.makePairs id
    return m.setValue id (.set (pairs.map Prod.fst))
  | some (.pairs _) => do
    let (entries, m) ← m.makeEntries id
    return m.setValue id (.pairs entries)
  | _ => .ok m

/-- Fills the waiting collections, the first one first. -/
def run (fuel : Nat) (m : Maker) : Except Error Maker :=
  match fuel, m.waiting with
  | fuel + 1, id :: rest => do
    let m ← { m with waiting := rest }.fill id
    run fuel m
  | _, _ => .ok m

end Maker

/-- The document of a graph of nodes. -/
def ofGraph (g : Graph) : Except Error Document :=
  match g.root with
  | none => .ok {}
  | some root => do
    let m ← Maker.make { nodes := g.nodes, values := .replicate g.nodes.size none } root
    let m ← m.run (g.nodes.size + 1)
    return { values := m.values, root := some root }

/-- The document of a text. -/
def ofText (text : List Char) : Except Error Document := do
  let g ← graph text
  ofGraph g

-- ---------------------------------------------------------------------------
-- Text of values
-- ---------------------------------------------------------------------------

/-- Texts with commas between brackets. -/
def bracketed (opening closing : String) (parts : List String) : String :=
  opening ++ ", ".intercalate parts ++ closing

/-- A value inside others, whose numbers are `around`; a collection inside itself is not written again. Nor is a pair:
`own` is the one that is being written, by the number of its list and its place there. -/
def nested (d : Document) (own : Option (Nat × Nat)) (fuel : Nat) (around : List Nat) (id : Nat) :
    Except Error String :=
  match fuel with
  | 0 => .error .tooDeep
  | fuel + 1 =>
    let part := d.nested own fuel (id :: around)
    match d.value? id with
    | none => .ok "None"
    | some (.atom a) => a.nested
    | some (.list items) =>
      if around.contains id then .ok "[...]" else bracketed "[" "]" <$> items.mapM part
    | some (.dict pairs) =>
      if around.contains id then .ok "\x7b...\x7d"
      else bracketed "\x7b" "\x7d" <$> pairs.mapM fun (key, value) => do
        let k ← key.nested
        let v ← part value
        return k ++ ": " ++ v
    | some (.set []) => .ok "set()"
    | some (.set members) => bracketed "\x7b" "\x7d" <$> members.mapM Atom.nested
    | some (.pairs entries) =>
      if around.contains id then .ok "[...]"
      else bracketed "[" "]" <$> entries.zipIdx.mapM fun ((key, value), place) =>
        if own = some (id, place) then .ok "(...)" else do
          let k ← part key
          let v ← part value
          return bracketed "(" ")" [k, v]

/-- The text of the pair at a place in a list. -/
def entryText (d : Document) (list place key value : Nat) : Except Error String := do
  let k ← d.nested (some (list, place)) (d.values.size + 2) [] key
  let v ← d.nested (some (list, place)) (d.values.size + 2) [] value
  return bracketed "(" ")" [k, v]

/-- The text of a value. -/
def textOf (d : Document) (id : Nat) : Except Error String :=
  match d.value? id with
  | some (.atom a) => a.plain
  | _ => d.nested none (d.values.size + 2) [] id

end Document

end TestDiscovery.Yaml
