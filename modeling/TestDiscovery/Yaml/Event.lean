-- SUMMARY: The events of a YAML text: the nesting of its nodes, by the grammar of the format.
import TestDiscovery.Yaml.Tag
import TestDiscovery.Yaml.Token.Stream

/-!
# Events

Tokens become events one after the other: starts and ends of documents and collections, scalars and aliases. The
grammar is a machine with a stack of states; each state looks at the next tokens, yields one event and says which
state follows. Empty scalars stand where the tokens leave a node out.
-/

namespace TestDiscovery.Yaml

inductive Event where
  | streamEnd
  | documentStart
  | documentEnd
  | reference (name : String)
  /-- A scalar with its tag in full. -/
  | scalar (anchor : Option String) (tag text : String)
  | sequenceStart (anchor : Option String) (tag : String)
  | sequenceEnd
  | mappingStart (anchor : Option String) (tag : String)
  | mappingEnd
deriving DecidableEq, Repr

namespace Event

inductive State where
  | firstDocument
  | documentStart
  | documentContent
  | documentEnd
  | blockNode
  | blockEntry (first : Bool)
  | indentlessEntry
  | blockKey (first : Bool)
  | blockValue
  | flowEntry (first : Bool)
  | pairKey
  | pairValue
  | pairEnd
  | flowKey (first : Bool)
  | flowValue
  | emptyValue
deriving DecidableEq, Repr

/-- The rest of the tokens, the present state, the states to return to, and what the handles of tags stand for. -/
structure Machine where
  tokens : List Token
  state : State := .firstDocument
  stack : List State := []
  handles : List (String × String) := []

/-- The handles that need no directive. -/
def defaultHandles : List (String × String) := [("!", "!"), ("!!", Tag.standard)]

abbrev Step := Except Error (Event × Machine)

/-- A scalar that is not written: its value is null. -/
def empty : Event := scalar none Tag.null ""

namespace Machine

/-- Goes back to the state on top of the stack. -/
def pop (m : Machine) : Machine :=
  match m.stack with
  | [] => m
  | state :: stack => { m with state, stack }

def enter (m : Machine) (state : State) : Machine := { m with state }

def push (m : Machine) (state : State) : Machine := { m with stack := state :: m.stack }

/-- The machine after one token. -/
def skip (m : Machine) : Machine := { m with tokens := m.tokens.drop 1 }

/-- The next token, or the fault that ends the tokens. -/
def peek (m : Machine) (fault : Error) : Except Error Token :=
  match m.tokens with
  | [] => .error fault
  | t :: _ => .ok t

end Machine

-- ---------------------------------------------------------------------------
-- Nodes
-- ---------------------------------------------------------------------------

/-- The anchor and the tag in front of a node, in either order. -/
structure Properties where
  anchor : Option String := none
  tag : Option (Option String × String) := none

/-- Reads the properties of a node. -/
def properties (m : Machine) (fault : Error) : Except Error (Properties × Machine) := do
  match ← m.peek fault with
  | .anchor name =>
    let m := m.skip
    match ← m.peek fault with
    | .tag handle text => return (⟨some name, some (handle, text)⟩, m.skip)
    | _ => return (⟨some name, none⟩, m)
  | .tag handle text =>
    let m := m.skip
    match ← m.peek fault with
    | .anchor name => return (⟨some name, some (handle, text)⟩, m.skip)
    | _ => return (⟨none, some (handle, text)⟩, m)
  | _ => return ({}, m)

/-- A tag in full; the lone exclamation mark counts as no tag and is told by the flag. -/
def fullTag (handles : List (String × String)) : Option (Option String × String) → Except Error (Option String × Bool)
  | none => .ok (none, false)
  | some (none, text) => if text = "!" then .ok (none, true) else .ok (some text, false)
  | some (some handle, text) =>
    match handles.lookup handle with
    | none => .error .misplacedToken
    | some start => if start ++ text = "!" then .ok (none, true) else .ok (some (start ++ text), false)

/-- Reads a node: `block` allows block collections, `indentless` a sequence that is not indented. -/
def node (block indentless : Bool) (m : Machine) (fault : Error) : Step := do
  match ← m.peek fault with
  | .reference name => return (reference name, m.skip.pop)
  | _ =>
    let (props, m) ← properties m fault
    let (tag, lone) ← fullTag m.handles props.tag
    let sequence := sequenceStart props.anchor (tag.getD Tag.seq)
    let mapping := mappingStart props.anchor (tag.getD Tag.map)
    match ← m.peek fault with
    | .blockEntry => if indentless then return (sequence, m.enter .indentlessEntry) else absent props tag m
    | .scalar text plain =>
      let implied := if plain || lone then Tag.ofPlain text else Tag.str
      return (scalar props.anchor (tag.getD implied) text, m.skip.pop)
    | .flowSequenceStart => return (sequence, m.enter (.flowEntry true))
    | .flowMappingStart => return (mapping, m.enter (.flowKey true))
    | .blockSequenceStart => if block then return (sequence, m.enter (.blockEntry true)) else absent props tag m
    | .blockMappingStart => if block then return (mapping, m.enter (.blockKey true)) else absent props tag m
    | _ => absent props tag m
where
  /-- A node that consists of its properties. -/
  absent (props : Properties) (tag : Option String) (m : Machine) : Step :=
    if props.anchor.isSome || props.tag.isSome then
      .ok (scalar props.anchor (tag.getD Tag.null) "", m.pop)
    else .error .misplacedToken

-- ---------------------------------------------------------------------------
-- Documents
-- ---------------------------------------------------------------------------

/-- Reads the directives in front of a document: the version, and the handles. -/
def directives (fault : Error) (versioned : Bool) (handles : List (String × String)) :
    List Token → Except Error (List (String × String) × List Token)
  | [] => .error fault
  | .directive (.version major) :: rest =>
    if versioned || major != 1 then .error .misplacedToken else directives fault true handles rest
  | .directive (.tagHandle handle start) :: rest =>
    if (handles.lookup handle).isSome then .error .misplacedToken
    else directives fault versioned ((handle, start) :: handles) rest
  | .directive .other :: rest => directives fault versioned handles rest
  | rest => .ok (handles ++ defaultHandles, rest)

/-- The start of a document that is marked as such, or the end of the text. -/
def markedDocument (m : Machine) (fault : Error) : Step := do
  let m := { m with tokens := m.tokens.dropWhile (· == Token.documentEnd) }
  match ← m.peek fault with
  | .streamEnd => return (streamEnd, m.skip)
  | _ =>
    let (handles, tokens) ← directives fault false [] m.tokens
    let m := { m with handles, tokens }
    match ← m.peek fault with
    | .documentStart => return (documentStart, (m.skip.push .documentEnd).enter .documentContent)
    | _ => .error .misplacedToken

-- ---------------------------------------------------------------------------
-- Steps
-- ---------------------------------------------------------------------------

/-- An entry of a flow sequence: a node, or a key that makes it a mapping with one pair. -/
def flowEntryStep (m : Machine) (fault : Error) : Step := do
  match ← m.peek fault with
  | .key => return (mappingStart none Tag.map, m.enter .pairKey)
  | .flowSequenceEnd => return (sequenceEnd, m.skip.pop)
  | _ => node false false (m.push (.flowEntry false)) fault

/-- A pair of a flow mapping: a marked key, or a node without a value. -/
def flowKeyStep (m : Machine) (fault : Error) : Step := do
  match ← m.peek fault with
  | .key =>
    let m := m.skip
    match ← m.peek fault with
    | .value | .flowEntry | .flowMappingEnd => return (empty, m.enter .flowValue)
    | _ => node false false (m.push .flowValue) fault
  | .flowMappingEnd => return (mappingEnd, m.skip.pop)
  | _ => node false false (m.push .emptyValue) fault

/-- One event and the machine after it. `fault` is what ends the tokens too early. -/
def step (m : Machine) (fault : Error) : Step := do
  match m.state with
  | .firstDocument =>
    match ← m.peek fault with
    | .directive _ | .documentStart | .streamEnd => markedDocument m fault
    | _ => return (documentStart, { (m.push .documentEnd).enter .blockNode with handles := defaultHandles })
  | .documentStart => markedDocument m fault
  | .documentContent =>
    match ← m.peek fault with
    | .directive _ | .documentStart | .documentEnd | .streamEnd => return (empty, m.pop)
    | _ => node true false m fault
  | .documentEnd =>
    match ← m.peek fault with
    | .documentEnd => return (documentEnd, m.skip.enter .documentStart)
    | _ => return (documentEnd, m.enter .documentStart)
  | .blockNode => node true false m fault
  | .blockEntry first =>
    let m := if first then m.skip else m
    match ← m.peek fault with
    | .blockEntry =>
      let m := m.skip
      match ← m.peek fault with
      | .blockEntry | .blockEnd => return (empty, m.enter (.blockEntry false))
      | _ => node true false (m.push (.blockEntry false)) fault
    | .blockEnd => return (sequenceEnd, m.skip.pop)
    | _ => .error .misplacedToken
  | .indentlessEntry =>
    match ← m.peek fault with
    | .blockEntry =>
      let m := m.skip
      match ← m.peek fault with
      | .blockEntry | .key | .value | .blockEnd => return (empty, m.enter .indentlessEntry)
      | _ => node true false (m.push .indentlessEntry) fault
    | _ => return (sequenceEnd, m.pop)
  | .blockKey first =>
    let m := if first then m.skip else m
    match ← m.peek fault with
    | .key =>
      let m := m.skip
      match ← m.peek fault with
      | .key | .value | .blockEnd => return (empty, m.enter .blockValue)
      | _ => node true true (m.push .blockValue) fault
    | .blockEnd => return (mappingEnd, m.skip.pop)
    | _ => .error .misplacedToken
  | .blockValue =>
    match ← m.peek fault with
    | .value =>
      let m := m.skip
      match ← m.peek fault with
      | .key | .value | .blockEnd => return (empty, m.enter (.blockKey false))
      | _ => node true true (m.push (.blockKey false)) fault
    | _ => return (empty, m.enter (.blockKey false))
  | .flowEntry first =>
    if first then flowEntryStep m.skip fault
    else match ← m.peek fault with
      | .flowSequenceEnd => return (sequenceEnd, m.skip.pop)
      | .flowEntry => flowEntryStep m.skip fault
      | _ => .error .misplacedToken
  | .pairKey =>
    let m := m.skip
    match ← m.peek fault with
    | .value | .flowEntry | .flowSequenceEnd => return (empty, m.enter .pairValue)
    | _ => node false false (m.push .pairValue) fault
  | .pairValue =>
    match ← m.peek fault with
    | .value =>
      let m := m.skip
      match ← m.peek fault with
      | .flowEntry | .flowSequenceEnd => return (empty, m.enter .pairEnd)
      | _ => node false false (m.push .pairEnd) fault
    | _ => return (empty, m.enter .pairEnd)
  | .pairEnd =>
    let _ ← m.peek fault
    return (mappingEnd, m.enter (.flowEntry false))
  | .flowKey first =>
    if first then flowKeyStep m.skip fault
    else match ← m.peek fault with
      | .flowMappingEnd => return (mappingEnd, m.skip.pop)
      | .flowEntry => flowKeyStep m.skip fault
      | _ => .error .misplacedToken
  | .flowValue =>
    match ← m.peek fault with
    | .value =>
      let m := m.skip
      match ← m.peek fault with
      | .flowEntry | .flowMappingEnd => return (empty, m.enter (.flowKey false))
      | _ => node false false (m.push (.flowKey false)) fault
    | _ => return (empty, m.enter (.flowKey false))
  | .emptyValue =>
    let _ ← m.peek fault
    return (empty, m.enter (.flowKey false))

/-- Events to the end of the text or to the first fault. -/
def run (fault : Error) (fuel : Nat) (m : Machine) : List Event × Option Error :=
  match fuel with
  | 0 => ([], some .misplacedToken)
  | fuel + 1 =>
    match step m fault with
    | .error e => ([], some e)
    | .ok (streamEnd, _) => ([streamEnd], none)
    | .ok (event, m) =>
      let (events, fault) := run fault fuel m
      (event :: events, fault)

/-- The events of tokens, and the fault that ends them if there is one. At most three events come between two
tokens. -/
def ofTokens (tokens : List Token) (fault : Option Error) : List Event × Option Error :=
  run (fault.getD .misplacedToken) (4 * tokens.length + 8) { tokens }

end Event

end TestDiscovery.Yaml
