-- SUMMARY: The token stream of a YAML text: indentation and simple keys.
import TestDiscovery.Yaml.Token.Scalar

/-!
# Token streams

Two things make the tokens of a text depend on each other. Indentation opens and closes blocks: a stack holds the
columns of the open ones. And a key is written before the colon that makes it one, so each place where a key may
have started is remembered, one for each level of flow collections, and the colon puts the tokens in there.

A faulty text still has tokens up to the fault. They are counted as far as no key that is still undecided can
put a token before them.
-/

namespace TestDiscovery.Yaml

/-- A place where a key may have started. -/
structure PossibleKey where
  /-- How many tokens stand before it. -/
  position : Nat
  /-- Whether nothing but a key may stand there. -/
  required : Bool
  line : Nat
  column : Nat
  index : Nat
deriving Repr

structure Tokenizer where
  cursor : Cursor
  tokens : Array Token := #[]
  /-- How many flow collections are open. -/
  flow : Nat := 0
  /-- The column of the innermost block, and of the blocks around it. -/
  indent : Int := -1
  outer : List Int := []
  /-- Whether a key may start at the next token. -/
  keyAllowed : Bool := true
  /-- The possible keys by level, the innermost first. -/
  keys : List (Nat × PossibleKey) := []
  done : Bool := false

namespace Tokenizer

/-- The longest distance between the start of a key and its colon. -/
def maxKeyLength : Nat := 1024

def push (s : Tokenizer) (t : Token) : Tokenizer := { s with tokens := s.tokens.push t }

/-- The tokens that no undecided key can move. -/
def settled (s : Tokenizer) : List Token :=
  let tokens := s.tokens.toList
  match s.keys.map (·.2.position) with
  | [] => tokens
  | p :: ps => tokens.take (ps.foldl min p)

-- ---------------------------------------------------------------------------
-- Keys
-- ---------------------------------------------------------------------------

/-- Drops the possible keys that lie on another line or too far back. -/
def dropStale (s : Tokenizer) : Except Error Tokenizer :=
  let isStale (k : PossibleKey) := k.line != s.cursor.line || maxKeyLength < s.cursor.index - k.index
  if s.keys.any fun (_, k) => isStale k && k.required then .error .badToken
  else .ok { s with keys := s.keys.filter fun (_, k) => !isStale k }

/-- Drops the possible key of the present level. -/
def dropKey (s : Tokenizer) : Except Error Tokenizer :=
  if s.keys.any fun (level, k) => level == s.flow && k.required then .error .badToken
  else .ok { s with keys := s.keys.filter fun (level, _) => level != s.flow }

/-- Remembers that a key may start here. -/
def saveKey (s : Tokenizer) : Except Error Tokenizer :=
  if s.keyAllowed then do
    let s ← s.dropKey
    let key : PossibleKey := {
      position := s.tokens.size
      required := s.flow == 0 && s.indent == s.cursor.column
      line := s.cursor.line
      column := s.cursor.column
      index := s.cursor.index }
    return { s with keys := (s.flow, key) :: s.keys }
  else .ok s

-- ---------------------------------------------------------------------------
-- Indentation
-- ---------------------------------------------------------------------------

/-- Closes the blocks that are indented by more than `column`; `open` are the columns around the innermost. -/
def unwindTo (column : Int) (s : Tokenizer) : List Int → Tokenizer
  | [] => s
  | outer :: rest =>
    if column < s.indent then
      unwindTo column { s with tokens := s.tokens.push .blockEnd, indent := outer, outer := rest } rest
    else s

/-- Closes the blocks that end before `column`. Flow collections ignore indentation. -/
def unwind (s : Tokenizer) (column : Int) : Tokenizer := if s.flow != 0 then s else unwindTo column s s.outer

/-- Opens a block at a column, unless the innermost block has that column. -/
def openBlock? (s : Tokenizer) (column : Int) : Option Tokenizer :=
  if s.indent < column then some { s with outer := s.indent :: s.outer, indent := column } else none

/-- Opens a block with its first token, if one starts at the cursor. -/
def startBlock (s : Tokenizer) (t : Token) : Tokenizer :=
  match s.openBlock? s.cursor.column with
  | some s => s.push t
  | none => s

-- ---------------------------------------------------------------------------
-- Blanks
-- ---------------------------------------------------------------------------

/-- Skips blanks, comments and line breaks. A new line allows a key outside flow collections. -/
def skipBlanks (flow : Bool) (fuel : Nat) (c : Cursor) (keyAllowed : Bool) : Cursor × Bool :=
  match fuel with
  | 0 => (c, keyAllowed)
  | fuel + 1 =>
    let c := c.skipSpaces.skipComment
    if endsLine c.peek && c.peek.isSome then skipBlanks flow fuel c.next (keyAllowed || !flow)
    else (c, keyAllowed)

/-- The state at the next token. A byte order mark at the start of the text is skipped. -/
def toNextToken (s : Tokenizer) : Tokenizer :=
  let c := if s.cursor.index = 0 && s.cursor.peek = some '\uFEFF' then s.cursor.next else s.cursor
  let (cursor, keyAllowed) := skipBlanks (s.flow != 0) (c.rest.length + 1) c s.keyAllowed
  { s with cursor, keyAllowed }

-- ---------------------------------------------------------------------------
-- One token
-- ---------------------------------------------------------------------------

/-- The end of the text closes all blocks. -/
def readEnd (s : Tokenizer) : Except Error Tokenizer := do
  let s ← (s.unwind (-1)).dropKey
  return { s.push .streamEnd with keyAllowed := false, keys := [], done := true }

def readDirective (s : Tokenizer) : Except Error Tokenizer := do
  let s ← (s.unwind (-1)).dropKey
  let (token, cursor) ← directiveToken s.cursor
  return { s.push token with cursor, keyAllowed := false }

def readDocumentMark (s : Tokenizer) (t : Token) : Except Error Tokenizer := do
  let s ← (s.unwind (-1)).dropKey
  return { s.push t with cursor := s.cursor.advance 3, keyAllowed := false }

def readFlowStart (s : Tokenizer) (t : Token) : Except Error Tokenizer := do
  let s ← s.saveKey
  return { s.push t with cursor := s.cursor.next, flow := s.flow + 1, keyAllowed := true }

/-- The end of a flow collection. Without an open one it has no place in any text. -/
def readFlowEnd (s : Tokenizer) (t : Token) : Except Error Tokenizer := do
  let s ← s.dropKey
  if s.flow = 0 then .error .misplacedToken
  else return { s.push t with cursor := s.cursor.next, flow := s.flow - 1, keyAllowed := false }

def readFlowEntry (s : Tokenizer) : Except Error Tokenizer := do
  let s ← s.dropKey
  return { s.push .flowEntry with cursor := s.cursor.next, keyAllowed := true }

def readBlockEntry (s : Tokenizer) : Except Error Tokenizer := do
  if s.flow = 0 && !s.keyAllowed then .error .badToken
  let s := if s.flow = 0 then s.startBlock .blockSequenceStart else s
  let s ← s.dropKey
  return { s.push .blockEntry with cursor := s.cursor.next, keyAllowed := true }

def readKey (s : Tokenizer) : Except Error Tokenizer := do
  if s.flow = 0 && !s.keyAllowed then .error .badToken
  let s := if s.flow = 0 then s.startBlock .blockMappingStart else s
  let s ← s.dropKey
  return { s.push .key with cursor := s.cursor.next, keyAllowed := s.flow = 0 }

/-- A colon. If a key may have started on this level, the key indicator goes in front of it, and the start of a block
if the key opens one. -/
def readValue (s : Tokenizer) : Except Error Tokenizer := do
  match s.keys.find? fun (level, _) => level == s.flow with
  | some (_, key) =>
    let s := { s with
      keys := s.keys.filter fun (level, _) => level != s.flow
      tokens := s.tokens.insertIdxIfInBounds key.position .key }
    let s := if s.flow = 0 then
        match s.openBlock? key.column with
        | some s => { s with tokens := s.tokens.insertIdxIfInBounds key.position .blockMappingStart }
        | none => s
      else s
    return { s.push .value with cursor := s.cursor.next, keyAllowed := false }
  | none =>
    if s.flow = 0 && !s.keyAllowed then .error .badToken
    let s := if s.flow = 0 then s.startBlock .blockMappingStart else s
    let s ← { s with keyAllowed := s.flow = 0 }.dropKey
    return { s.push .value with cursor := s.cursor.next }

/-- An alias, an anchor, a tag or a quoted scalar: each may start a key and none allows one after it. -/
def readKeyStart (s : Tokenizer) (read : Cursor → Except Error (Token × Cursor)) : Except Error Tokenizer := do
  let s ← s.saveKey
  let (token, cursor) ← read s.cursor
  return { s.push token with cursor, keyAllowed := false }

def readBlockScalar (s : Tokenizer) (folded : Bool) : Except Error Tokenizer := do
  let s ← { s with keyAllowed := true }.dropKey
  let (text, cursor) ← blockScalar folded s.indent s.cursor
  return { s.push (.scalar (String.ofList text) false) with cursor }

def readPlain (s : Tokenizer) : Except Error Tokenizer := do
  let s ← s.saveKey
  let (text, cursor, ended) := plainScalar (s.flow != 0) (s.indent + 1) s.cursor
  return { s.push (.scalar (String.ofList text) true) with cursor, keyAllowed := ended }

/-- Whether a plain scalar can start with a character, by the character after it. -/
def startsPlain (flow : Bool) (ch : Char) (after : Option Char) : Bool :=
  if isBreak ch || "\x00 \t-?:,[]\x7b\x7d#&*!|>'\"%@\x60".toList.contains ch then
    !endsWord after && (ch == '-' || (!flow && (ch == '?' || ch == ':')))
  else true

/-- Reads the token that starts with `ch`. -/
def readToken (s : Tokenizer) (ch : Char) : Except Error Tokenizer :=
  let inBlock := s.flow = 0
  let after := s.cursor.peekAt 1
  if ch == '%' && s.cursor.column = 0 then s.readDirective
  else if s.cursor.column = 0 && s.cursor.atMark ['-', '-', '-'] then s.readDocumentMark .documentStart
  else if s.cursor.column = 0 && s.cursor.atMark ['.', '.', '.'] then s.readDocumentMark .documentEnd
  else if ch == '[' then s.readFlowStart .flowSequenceStart
  else if ch == '{' then s.readFlowStart .flowMappingStart
  else if ch == ']' then s.readFlowEnd .flowSequenceEnd
  else if ch == '}' then s.readFlowEnd .flowMappingEnd
  else if ch == ',' then s.readFlowEntry
  else if ch == '-' && endsWord after then s.readBlockEntry
  else if ch == '?' && (!inBlock || endsWord after) then s.readKey
  else if ch == ':' && (!inBlock || endsWord after) then s.readValue
  else if ch == '*' then
    s.readKeyStart fun c => do let (name, c) ← anchorName c; return (.reference name, c)
  else if ch == '&' then
    s.readKeyStart fun c => do let (name, c) ← anchorName c; return (.anchor name, c)
  else if ch == '!' then s.readKeyStart tagToken
  else if ch == '|' && inBlock then s.readBlockScalar false
  else if ch == '>' && inBlock then s.readBlockScalar true
  else if ch == '\'' then
    s.readKeyStart fun c => do let (text, c) ← quotedScalar false c; return (.scalar (String.ofList text) false, c)
  else if ch == '"' then
    s.readKeyStart fun c => do let (text, c) ← quotedScalar true c; return (.scalar (String.ofList text) false, c)
  else if startsPlain (!inBlock) ch after then s.readPlain
  else .error .badToken

/-- Reads the next token, after closing the blocks that end before it. -/
def read (s : Tokenizer) : Except Error Tokenizer := do
  let s ← s.toNextToken.dropStale
  let s := s.unwind s.cursor.column
  match s.cursor.peek with
  | none => s.readEnd
  | some ch => s.readToken ch

/-- Reads tokens to the end of the text or to the first fault. -/
def run (fuel : Nat) (s : Tokenizer) : List Token × Option Error :=
  match fuel with
  | 0 => (s.settled, some .badToken)
  | fuel + 1 =>
    match s.dropStale with
    | .error e => (s.settled, some e)
    | .ok s =>
      match s.read with
      | .error e => (s.settled, some e)
      | .ok s => if s.done then (s.tokens.toList, none) else run fuel s

end Tokenizer

/-- The tokens of a text, and the fault that ends them if there is one. -/
def tokens (text : List Char) : List Token × Option Error :=
  Tokenizer.run (text.length + 2) { cursor := { rest := text } }

end TestDiscovery.Yaml
