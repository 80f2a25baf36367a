-- SUMMARY: Taking the codes for colours and cursor movements out of a text.
/-!
# Terminal codes

A terminal code is an escape character, an opening bracket, any number of digits and other parameter characters, and a
letter. Where a text is not for a terminal its codes are left out.
-/

namespace TestDiscovery.Text

/-- Characters between the bracket and the letter of a terminal code. -/
def isCodeParameter (c : Char) : Bool := c.isDigit || c == ';' || c == '?'

/-- The text without terminal codes; `held` is the start of a code that is not complete, last character first. -/
def dropCodesFrom (held : List Char) : List Char → List Char
  | [] => held.reverse
  | c :: r =>
    match held with
    | [] => if c = '\x1B' then dropCodesFrom [c] r else c :: dropCodesFrom [] r
    | [_] =>
      if c = '[' then dropCodesFrom (c :: held) r
      else if c = '\x1B' then held.reverse ++ dropCodesFrom [c] r
      else held.reverse ++ c :: dropCodesFrom [] r
    | _ =>
      if isCodeParameter c then dropCodesFrom (c :: held) r
      else if c.isAlpha then dropCodesFrom [] r
      else if c = '\x1B' then held.reverse ++ dropCodesFrom [c] r
      else held.reverse ++ c :: dropCodesFrom [] r

/-- The text without terminal codes. -/
def dropCodes (s : List Char) : List Char := dropCodesFrom [] s

end TestDiscovery.Text
