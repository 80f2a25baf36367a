-- SUMMARY: Scalars of a YAML text: plain, quoted and as blocks.
import TestDiscovery.Yaml.Token.Name

/-!
# Scalars

A scalar may run over several lines. In plain and quoted scalars a single line break becomes a space, and further
breaks are kept. A block keeps its breaks, or folds them in the same way between lines that start with no blank;
what it does at its end is written in its header.
-/

namespace TestDiscovery.Yaml

-- ---------------------------------------------------------------------------
-- Folding
-- ---------------------------------------------------------------------------

/-- A first break and the breaks after it, folded. -/
def fold (first more : List Char) : List Char :=
  if first != ['\n'] then first ++ more else if more.isEmpty then [' '] else more

-- ---------------------------------------------------------------------------
-- Plain scalars
-- ---------------------------------------------------------------------------

/-- Indicators of flow collections. -/
def isFlowIndicator (c : Char) : Bool := c == ',' || c == '[' || c == ']' || c == '{' || c == '}'

/-- Whether a colon ends a plain scalar, by the character after it. -/
def colonEnds (flow : Bool) (after : Option Char) : Bool :=
  endsWord after || (flow && after.any isFlowIndicator)

/-- The characters of a plain scalar up to a blank or an indicator. -/
def plainRun (flow : Bool) : List Char → List Char
  | [] => []
  | c :: r =>
    if isBreak c || isSpace c || (c == ':' && colonEnds flow r.head?) ||
        (flow && (isFlowIndicator c || c == '?')) then []
    else c :: plainRun flow r

/-- The breaks and spaces after the first break in a plain scalar, or nothing where a document ends. -/
def plainBreaks (fuel : Nat) (c : Cursor) : Option (List Char) × Cursor :=
  match fuel with
  | 0 => (some [], c)
  | fuel + 1 =>
    if c.peek = some ' ' then plainBreaks fuel c.next
    else if endsLine c.peek && c.peek.isSome then
      let (ch, after) := c.lineBreak
      if after.atDocumentMark then (none, after)
      else
        let (more, final) := plainBreaks fuel after
        (more.map (ch ++ ·), final)
    else (some [], c)

/-- The blanks between two runs of a plain scalar as its value holds them; empty where the scalar ends. The flag
says whether a line ended. -/
def plainSpaces (c : Cursor) : List Char × Cursor × Bool :=
  let (spaces, after) := c.span (· == ' ')
  if endsLine after.peek && after.peek.isSome then
    let (first, after) := after.lineBreak
    if after.atDocumentMark then ([], after, true)
    else match plainBreaks (after.rest.length + 1) after with
      | (some more, after) => (fold first more, after, true)
      | (none, after) => ([], after, true)
  else (spaces, after, false)

/-- A plain scalar whose lines are indented by `indent`, after the blanks `before`: its text, the cursor after it, and
whether a line has ended since its last character. -/
def plainFrom (flow : Bool) (indent : Int) (fuel : Nat) (before : List Char) (ended : Bool) (c : Cursor) :
    List Char × Cursor × Bool :=
  match fuel with
  | 0 => ([], c, ended)
  | fuel + 1 =>
    let run := if c.peek = some '#' then [] else plainRun flow c.rest
    if run.isEmpty then ([], c, ended)
    else
      let (spaces, after, ended) := plainSpaces (c.advance run.length)
      if spaces.isEmpty || after.peek = some '#' || (!flow && (after.column : Int) < indent) then
        (before ++ run, after, ended)
      else
        let (more, final, ended) := plainFrom flow indent fuel spaces ended after
        (before ++ run ++ more, final, ended)

/-- A plain scalar. -/
def plainScalar (flow : Bool) (indent : Int) (c : Cursor) : List Char × Cursor × Bool :=
  plainFrom flow indent (c.rest.length + 1) [] false c

-- ---------------------------------------------------------------------------
-- Quoted scalars
-- ---------------------------------------------------------------------------

/-- The character for one letter after a backslash. -/
def escapeOf : Char → Option Char
  | '0' => some '\x00'
  | 'a' => some '\x07'
  | 'b' => some '\x08'
  | 't' => some '\t'
  | '\t' => some '\t'
  | 'n' => some '\n'
  | 'v' => some '\x0B'
  | 'f' => some '\x0C'
  | 'r' => some '\r'
  | 'e' => some '\x1B'
  | ' ' => some ' '
  | '"' => some '"'
  | '\\' => some '\\'
  | '/' => some '/'
  | 'N' => some '\x85'
  | '_' => some '\xA0'
  | 'L' => some '\u2028'
  | 'P' => some '\u2029'
  | _ => none

/-- How many hexadecimal digits follow a letter after a backslash. -/
def escapeWidth : Char → Option Nat
  | 'x' => some 2
  | 'u' => some 4
  | 'U' => some 8
  | _ => none

/-- The character with a code. Half of a surrogate pair is no character and becomes the replacement character. -/
def escapedChar (code : Nat) : Except Error Char :=
  if code ≥ 0x80000000 then .error .hugeCharacter
  else if code > 0x10FFFF then .error .badValue
  else if 0xD800 ≤ code && code ≤ 0xDFFF then .ok '\uFFFD'
  else .ok (Char.ofNat code)

/-- The breaks inside a quoted scalar after its first break. -/
def quotedBreaks (fuel : Nat) (c : Cursor) : Except Error (List Char × Cursor) :=
  match fuel with
  | 0 => .ok ([], c)
  | fuel + 1 =>
    if c.atDocumentMark then .error .badToken
    else
      let c := c.skipWhile isSpace
      if endsLine c.peek && c.peek.isSome then do
        let (ch, after) := c.lineBreak
        let (more, final) ← quotedBreaks fuel after
        return (ch ++ more, final)
      else .ok ([], c)

/-- The blanks between two runs of a quoted scalar as its value holds them. -/
def quotedSpaces (c : Cursor) : Except Error (List Char × Cursor) :=
  let (spaces, after) := c.span isSpace
  match after.peek with
  | none => .error .badToken
  | some ch =>
    if isBreak ch then do
      let (first, after) := after.lineBreak
      let (more, after) ← quotedBreaks (after.rest.length + 1) after
      return (fold first more, after)
    else .ok (spaces, after)

/-- The character or line break after a backslash. -/
def escape (c : Cursor) : Except Error (List Char × Cursor) :=
  match c.peek with
  | none => .error .badToken
  | some ch =>
    match escapeOf ch, escapeWidth ch with
    | some e, _ => .ok ([e], c.next)
    | none, some width =>
      let code := c.next.rest.take width
      if code.length = width && code.all isHexDigit then do
        let e ← escapedChar (hexValue code)
        return ([e], c.next.advance width)
      else .error .badToken
    | none, none =>
      if isBreak ch then
        let (_, after) := c.lineBreak
        quotedBreaks (after.rest.length + 1) after
      else .error .badToken

/-- The value of a quoted scalar from inside its quotes, and the cursor after the closing one. -/
def quotedFrom (double : Bool) (fuel : Nat) (c : Cursor) : Except Error (List Char × Cursor) :=
  match fuel with
  | 0 => .error .badToken
  | fuel + 1 => do
    let (here, after, closed) ←
      match c.peek with
      | none => .error .badToken
      | some ch =>
        if ch == '\'' && !double && c.peekAt 1 = some '\'' then pure (['\''], c.advance 2, false)
        else if ch == (if double then '"' else '\'') then pure ([], c.next, true)
        else if ch == '\\' && double then do
          let (text, after) ← escape c.next
          pure (text, after, false)
        else if isBreak ch || isSpace ch then do
          let (text, after) ← quotedSpaces c
          pure (text, after, false)
        else pure ([ch], c.next, false)
    if closed then return (here, after)
    let (more, final) ← quotedFrom double fuel after
    return (here ++ more, final)

/-- A quoted scalar. -/
def quotedScalar (double : Bool) (c : Cursor) : Except Error (List Char × Cursor) :=
  quotedFrom double (c.rest.length + 1) c.next

-- ---------------------------------------------------------------------------
-- Blocks
-- ---------------------------------------------------------------------------

/-- What becomes of the breaks at the end of a block. -/
inductive Chomping where
  | strip
  | clip
  | keep
deriving DecidableEq, Repr

def chompingOf : Option Char → Option Chomping
  | some '+' => some .keep
  | some '-' => some .strip
  | _ => none

/-- The digit of an indentation indicator. -/
def indicatorDigit (c : Option Char) : Option Nat :=
  c.bind fun ch => if Text.isDigit ch then some (ch.toNat - '0'.toNat) else none

/-- The header of a block after its indicator: chomping and indentation in either order, then perhaps a comment. -/
def blockHeader (c : Cursor) : Except Error (Chomping × Option Nat × Cursor) := do
  let (chomping, digit, after) :=
    match chompingOf c.peek with
    | some chomping =>
      match indicatorDigit c.next.peek with
      | some digit => (chomping, some digit, c.next.next)
      | none => (chomping, none, c.next)
    | none =>
      match indicatorDigit c.peek with
      | some digit =>
        match chompingOf c.next.peek with
        | some chomping => (chomping, some digit, c.next.next)
        | none => (.clip, some digit, c.next)
      | none => (.clip, none, c)
  if digit = some 0 || !endsField after.peek then .error .badToken
  let after := after.skipSpaces.skipComment
  if endsLine after.peek then return (chomping, digit, after.lineBreak.2) else .error .badToken

/-- Empty lines at the start of a block, and the widest of their indentations and of the first line's. -/
def leadingBreaks (fuel : Nat) (c : Cursor) (widest : Nat) : List Char × Nat × Cursor :=
  match fuel with
  | 0 => ([], widest, c)
  | fuel + 1 =>
    match c.peek with
    | some ch =>
      if isBreak ch then
        let (b, after) := c.lineBreak
        let (more, widest, final) := leadingBreaks fuel after widest
        (b ++ more, widest, final)
      else if ch == ' ' then leadingBreaks fuel c.next (max widest c.next.column)
      else ([], widest, c)
    | none => ([], widest, c)

/-- The cursor after spaces, at most up to a column. -/
def skipIndent (indent : Nat) (c : Cursor) : Cursor :=
  c.advance ((c.rest.takeWhile (· == ' ')).length.min (indent - c.column))

/-- The empty lines before the next line of a block. -/
def blockBreaks (indent : Nat) (fuel : Nat) (c : Cursor) : List Char × Cursor :=
  match fuel with
  | 0 => ([], c)
  | fuel + 1 =>
    let c := skipIndent indent c
    if endsLine c.peek && c.peek.isSome then
      let (b, after) := c.lineBreak
      let (more, final) := blockBreaks indent fuel after
      (b ++ more, final)
    else ([], c)

/-- The lines of a block: its text without the last break, that break, the breaks after it, and the cursor there. -/
def blockLines (folded : Bool) (indent : Nat) (fuel : Nat) (breaks : List Char) (c : Cursor) :
    List Char × List Char × List Char × Cursor :=
  match fuel with
  | 0 => ([], [], breaks, c)
  | fuel + 1 =>
    if c.column != indent || c.peek.isNone then ([], [], breaks, c)
    else
      let startsFlush := !(c.peek.any isSpace)
      let (line, after) := c.span fun ch => !isBreak ch
      let (lineBreak, after) := after.lineBreak
      let (more, after) := blockBreaks indent (after.rest.length + 1) after
      if after.column == indent && after.peek.isSome then
        let between :=
          if folded && lineBreak == ['\n'] && startsFlush && !(after.peek.any isSpace) then
            if more.isEmpty then [' '] else []
          else lineBreak
        let (text, last, trailing, final) := blockLines folded indent fuel more after
        (breaks ++ line ++ between ++ text, last, trailing, final)
      else (breaks ++ line, lineBreak, more, after)

/-- A block scalar inside a collection whose indentation is `outer`. -/
def blockScalar (folded : Bool) (outer : Int) (c : Cursor) : Except Error (List Char × Cursor) := do
  let (chomping, digit, after) ← blockHeader c.next
  let least := (max (outer + 1) 1).toNat
  let (breaks, indent, after) :=
    match digit with
    | none =>
      let (breaks, widest, after) := leadingBreaks (after.rest.length + 1) after 0
      (breaks, max least widest, after)
    | some digit =>
      let indent := least + digit - 1
      let (breaks, after) := blockBreaks indent (after.rest.length + 1) after
      (breaks, indent, after)
  let (text, last, trailing, after) := blockLines folded indent (after.rest.length + 1) breaks after
  return (text ++ (if chomping = .strip then [] else last) ++ (if chomping = .keep then trailing else []), after)

end TestDiscovery.Yaml
