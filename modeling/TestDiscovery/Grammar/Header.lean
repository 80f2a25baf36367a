-- SUMMARY: Headers of classes and procedures: a keyword, a name and a colon.
import TestDiscovery.Text.Blank
import TestDiscovery.Text.Keyword
import TestDiscovery.Text.Search

/-!
# Headers

A header is a keyword, at least one blank, a name and a colon. The name is a whole word if the colon follows
it, with or without blanks between; otherwise the colon stands inside the word, and the name is what comes
before the last of them, as long as that is not empty.
-/

namespace TestDiscovery.Grammar

/-- The name that a text starts with, ended by its colon. -/
def headedName? (s : List Char) : Option (List Char) :=
  let run := Text.word s
  if run.isEmpty then none
  else if (Text.trimLeft (Text.afterWord s)).head? = some ':' then some run
  else match Text.splitLast? ':' run with
    | some (name, _) => if name.isEmpty then none else some name
    | none => none

/-- The name of the header that starts with the keyword `word` at the front of a text. -/
def headerAt? (word : List Char) (s : List Char) : Option (List Char) :=
  match Text.afterKeyword? Text.anyCase word s with
  | none => none
  | some r => if Text.startsBlank r then headedName? (Text.trimLeft r) else none

-- ---------------------------------------------------------------------------
-- Classes
-- ---------------------------------------------------------------------------

def classWord : List Char := ['c', 'l', 'a', 's', 's']

/-- The class that a line declares: nothing but blanks stands before its header. -/
def className? (line : List Char) : Option (List Char) := headerAt? classWord (Text.trimLeft line)

-- ---------------------------------------------------------------------------
-- Procedures
-- ---------------------------------------------------------------------------

def procedureWord : List Char := ['p', 'r', 'o', 'c', 'e', 'd', 'u', 'r', 'e']

/-- The first header at a word start; `fresh` says whether the text begins at one. -/
def procedureFrom? (fresh : Bool) : List Char → Option (List Char)
  | [] => none
  | c :: r =>
    match if fresh then headerAt? procedureWord (c :: r) else none with
    | some name => some name
    | none => procedureFrom? (Text.isBlank c) r

/-- The procedure that a line declares. Its header is the first one that fits, at the start of the line or
after a blank. -/
def procedureName? (line : List Char) : Option (List Char) := procedureFrom? true line

end TestDiscovery.Grammar
