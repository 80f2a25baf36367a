-- SUMMARY: Anchors, aliases, tags and directives in a YAML text.
import TestDiscovery.Text.Digit
import TestDiscovery.Text.Utf8
import TestDiscovery.Yaml.Cursor
import TestDiscovery.Yaml.Error
import TestDiscovery.Yaml.Token

/-!
# Names

Names of anchors, handles and directives are made of letters and digits of ASCII, hyphens and underscores. The text
of a tag may hold more characters, and bytes written in hexadecimal after a percent sign.
-/

namespace TestDiscovery.Yaml

def isNameChar (c : Char) : Bool := c.isAlphanum || c == '-' || c == '_'

def isTagChar (c : Char) : Bool :=
  c.isAlphanum || "-;/?:@&=+$,_.!~*'()[]".toList.contains c

def isHexDigit (c : Char) : Bool := Text.isDigit c || ('a' ≤ c && c ≤ 'f') || ('A' ≤ c && c ≤ 'F')

/-- The number that hexadecimal digits spell. -/
def hexValue (s : List Char) : Nat := (Text.digitsValue? 16 s).getD 0

-- ---------------------------------------------------------------------------
-- Anchors
-- ---------------------------------------------------------------------------

/-- The name of an anchor or alias, after its indicator. -/
def anchorName (c : Cursor) : Except Error (String × Cursor) :=
  let (name, after) := c.next.span isNameChar
  if name.isEmpty then .error .badToken
  else if endsWord after.peek || (after.peek.any fun ch => "?:,]\x7d%@\x60".toList.contains ch) then
    .ok (String.ofList name, after)
  else .error .badToken

-- ---------------------------------------------------------------------------
-- Tags
-- ---------------------------------------------------------------------------

/-- Bytes in hexadecimal, each after a percent sign. -/
def escapedBytes : List Char → Except Error (List UInt8)
  | '%' :: a :: b :: r =>
    if isHexDigit a && isHexDigit b then (UInt8.ofNat (hexValue [a, b]) :: ·) <$> escapedBytes r
    else .error .badToken
  | '%' :: _ => .error .badToken
  | _ => .ok []

/-- The text of a tag, with at most `fuel` runs of escapes. -/
def tagTextFrom (fuel : Nat) (c : Cursor) : Except Error (List Char × Cursor) :=
  let (run, after) := c.span isTagChar
  match fuel with
  | 0 => .ok (run, after)
  | fuel + 1 =>
    if after.peek = some '%' then do
      let bytes ← escapedBytes after.rest
      match Text.Utf8.decode bytes with
      | .error _ => .error .badToken
      | .ok escaped =>
        let (more, final) ← tagTextFrom fuel (after.advance (3 * bytes.length))
        return (run ++ escaped ++ more, final)
    else .ok (run, after)

/-- The text of a tag, which is not empty. -/
def tagText (c : Cursor) : Except Error (String × Cursor) := do
  let (text, after) ← tagTextFrom c.rest.length c
  if after.rest.length = c.rest.length then .error .badToken else return (String.ofList text, after)

/-- A handle: one exclamation mark, or a name between two. -/
def tagHandle (c : Cursor) : Except Error (String × Cursor) :=
  if c.peek != some '!' then .error .badToken
  else if c.peekAt 1 = some ' ' then .ok ("!", c.next)
  else
    let (name, after) := c.next.span isNameChar
    if after.peek = some '!' then .ok (String.ofList ('!' :: name ++ ['!']), after.next) else .error .badToken

/-- Whether another exclamation mark follows the first one before the end of the word. -/
def hasHandle (c : Cursor) : Bool :=
  (c.next.rest.takeWhile fun ch => !(isBreak ch || ch == ' ')).contains '!'

/-- A tag: in full between angle brackets, a lone exclamation mark, or a handle with a text. -/
def tagToken (c : Cursor) : Except Error (Token × Cursor) := do
  let (token, after) ←
    if c.peekAt 1 = some '<' then do
      let (text, after) ← tagText (c.advance 2)
      if after.peek = some '>' then pure (Token.tag none text, after.next) else .error .badToken
    else if endsWord (c.peekAt 1) then pure (Token.tag none "!", c.next)
    else do
      let (handle, after) ← if hasHandle c then tagHandle c else pure ("!", c.next)
      let (text, after) ← tagText after
      pure (Token.tag (some handle) text, after)
  if endsField after.peek then return (token, after) else .error .badToken

-- ---------------------------------------------------------------------------
-- Directives
-- ---------------------------------------------------------------------------

/-- The digits at the cursor, which are not none. -/
def digits (c : Cursor) : Except Error (Nat × Cursor) :=
  let (run, after) := c.span Text.isDigit
  if run.isEmpty then .error .badToken else .ok ((Text.digitsValue? 10 run).getD 0, after)

/-- The number of a version. -/
def versionDirective (c : Cursor) : Except Error (Directive × Cursor) := do
  let (major, after) ← digits c.skipSpaces
  if after.peek != some '.' then .error .badToken
  let (_, after) ← digits after.next
  if endsField after.peek then return (.version major, after) else .error .badToken

/-- A handle and what it stands for. -/
def handleDirective (c : Cursor) : Except Error (Directive × Cursor) := do
  let (handle, after) ← tagHandle c.skipSpaces
  if after.peek != some ' ' then .error .badToken
  let (text, after) ← tagText after.skipSpaces
  if endsField after.peek then return (.tagHandle handle text, after) else .error .badToken

/-- A directive: a line of its own that starts with a percent sign. -/
def directiveToken (c : Cursor) : Except Error (Token × Cursor) := do
  let (name, after) := c.next.span isNameChar
  if name.isEmpty || !endsField after.peek then .error .badToken
  let (directive, after) ←
    match String.ofList name with
    | "YAML" => versionDirective after
    | "TAG" => handleDirective after
    | _ => pure (Directive.other, after.skipLine)
  let after := after.skipSpaces.skipComment
  if endsLine after.peek then return (.directive directive, after.lineBreak.2) else .error .badToken

end TestDiscovery.Yaml
