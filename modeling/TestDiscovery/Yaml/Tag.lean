-- SUMMARY: Tags of YAML nodes, and the tag that the form of a plain scalar implies.
import TestDiscovery.Text.Digit

/-!
# Tags

A tag says what kind of value a node has. A scalar without a tag gets one by its form: the kinds are tried in a fixed
order, among those that can start with its first character, and a text is what fits none of them. One line feed
at the end does not count.
-/

namespace TestDiscovery.Yaml.Tag

/-- What the double exclamation mark stands for. -/
def standard : String := "tag:yaml.org,2002:"

def bool : String := "tag:yaml.org,2002:bool"
def int : String := "tag:yaml.org,2002:int"
def float : String := "tag:yaml.org,2002:float"
def null : String := "tag:yaml.org,2002:null"
def timestamp : String := "tag:yaml.org,2002:timestamp"
def merge : String := "tag:yaml.org,2002:merge"
def value : String := "tag:yaml.org,2002:value"
def yaml : String := "tag:yaml.org,2002:yaml"
def binary : String := "tag:yaml.org,2002:binary"
def omap : String := "tag:yaml.org,2002:omap"
def pairs : String := "tag:yaml.org,2002:pairs"
def set : String := "tag:yaml.org,2002:set"
def str : String := "tag:yaml.org,2002:str"
def seq : String := "tag:yaml.org,2002:seq"
def map : String := "tag:yaml.org,2002:map"

-- ---------------------------------------------------------------------------
-- Forms
-- ---------------------------------------------------------------------------

open TestDiscovery.Text (isDigit)

/-- A text without one line feed at its end. -/
def dropFinalBreak (s : List Char) : List Char :=
  match s.reverse with
  | '\n' :: r => r.reverse
  | _ => s

def isSign (c : Char) : Bool := c == '+' || c == '-'

/-- A text without one sign at its start. -/
def dropSign : List Char → List Char
  | [] => []
  | c :: r => if isSign c then r else c :: r

/-- A digit or the separator inside numbers. -/
def isDigitOrBar (c : Char) : Bool := isDigit c || c == '_'

/-- Digits and separators, starting with a digit. -/
def isDigits : List Char → Bool
  | [] => false
  | c :: r => isDigit c && r.all isDigitOrBar

/-- A part of a number in base 60: one digit, or two of which the first is at most five. -/
def isSixtieth : List Char → Bool
  | [a] => isDigit a
  | [a, b] => '0' ≤ a && a ≤ '5' && isDigit b
  | _ => false

/-- The first part of a text cut at `sep`, and whether the others are not none and all fit. -/
def cutAll (sep : Char) (first others : List Char → Bool) (s : List Char) : Bool :=
  let head := s.takeWhile (· != sep)
  let parts := (s.drop head.length).splitBy fun _ b => b != sep
  first head && !parts.isEmpty && parts.all fun part => others (part.drop 1)

def isBoolForm (s : List Char) : Bool :=
  ["yes", "Yes", "YES", "no", "No", "NO", "true", "True", "TRUE", "false", "False", "FALSE",
    "on", "On", "ON", "off", "Off", "OFF"].contains (String.ofList s)

def isNullForm (s : List Char) : Bool := ["~", "null", "Null", "NULL", ""].contains (String.ofList s)

def isIntForm (s : List Char) : Bool :=
  let body := dropSign s
  match body with
  | '0' :: 'b' :: r => !r.isEmpty && r.all fun c => c == '0' || c == '1' || c == '_'
  | '0' :: 'x' :: r =>
    !r.isEmpty && r.all fun c => isDigitOrBar c || ('a' ≤ c && c ≤ 'f') || ('A' ≤ c && c ≤ 'F')
  | '0' :: r => r.all fun c => ('0' ≤ c && c ≤ '7') || c == '_'
  | _ => isDigits body || cutAll ':' isDigits isSixtieth body

/-- An exponent with its sign, or none. -/
def isExponent : List Char → Bool
  | [] => true
  | e :: sign :: r => (e == 'e' || e == 'E') && isSign sign && !r.isEmpty && r.all isDigit
  | _ => false

/-- Digits and separators up to an exponent. -/
def isFraction (s : List Char) : Bool := isExponent (s.dropWhile isDigitOrBar)

def isFloatForm (s : List Char) : Bool :=
  let body := dropSign s
  let head := body.takeWhile (· != '.')
  match body.drop head.length with
  | [] => false
  | _ :: tail =>
    if head.isEmpty then
      ["inf", "Inf", "INF"].contains (String.ofList tail) ||
        (body == s && (["nan", "NaN", "NAN"].contains (String.ofList tail) ||
          ((tail.head?.any isDigit) && isFraction tail)))
    else
      (isDigits head && isFraction tail) || (cutAll ':' isDigits isSixtieth head && tail.all isDigitOrBar)

-- ---------------------------------------------------------------------------
-- Times
-- ---------------------------------------------------------------------------

/-- The parts of a time as they are written. -/
structure TimeText where
  year : List Char
  month : List Char
  day : List Char
  /-- Hour, minute, second and the digits after the point. -/
  clock : Option (List Char × List Char × List Char × List Char)
  /-- The zone: universal time, or a sign with hours and perhaps minutes. -/
  zone : Option (Option (Char × List Char × List Char))
deriving Repr

/-- Between `least` and `most` digits at the front, as many as there are, and the rest. -/
def takeDigits? (least most : Nat) (s : List Char) : Option (List Char × List Char) :=
  let run := (s.takeWhile isDigit).take most
  if run.length < least then none else some (run, s.drop run.length)

/-- The rest after one character that must be `c`. -/
def takeChar? (c : Char) : List Char → Option (List Char)
  | [] => none
  | d :: r => if c = d then some r else none

/-- The zone at the end of a time. -/
def zoneText? (s : List Char) : Option (Option (Option (Char × List Char × List Char))) :=
  match s with
  | [] => some none
  | _ =>
    match s.dropWhile fun c => c == ' ' || c == '\t' with
    | ['Z'] => some (some none)
    | sign :: r =>
      if isSign sign then do
        let (hours, r) ← takeDigits? 1 2 r
        match r with
        | [] => some (some (some (sign, hours, [])))
        | _ =>
          let r ← takeChar? ':' r
          let (minutes, r) ← takeDigits? 2 2 r
          if r.isEmpty then some (some (some (sign, hours, minutes))) else none
      else none
    | [] => none

/-- The time of day and the zone, after the date. -/
def clockText? (s : List Char) :
    Option ((List Char × List Char × List Char × List Char) × Option (Option (Char × List Char × List Char))) := do
  let s ← match s with
    | 'T' :: r => some r
    | 't' :: r => some r
    | _ =>
      let r := s.dropWhile fun c => c == ' ' || c == '\t'
      if r.length < s.length then some r else none
  let (hour, s) ← takeDigits? 1 2 s
  let s ← takeChar? ':' s
  let (minute, s) ← takeDigits? 2 2 s
  let s ← takeChar? ':' s
  let (second, s) ← takeDigits? 2 2 s
  let (fraction, s) := match s with
    | '.' :: r => (r.takeWhile isDigit, r.dropWhile isDigit)
    | _ => ([], s)
  let zone ← zoneText? s
  return ((hour, minute, second, fraction), zone)

/-- A date, alone or with a time of day. -/
def timeText? (s : List Char) : Option TimeText := do
  let (year, s) ← takeDigits? 4 4 s
  let s ← takeChar? '-' s
  let (month, s) ← takeDigits? 1 2 s
  let s ← takeChar? '-' s
  let (day, s) ← takeDigits? 1 2 s
  if s.isEmpty then return ⟨year, month, day, none, none⟩
  let (clock, zone) ← clockText? s
  return ⟨year, month, day, some clock, zone⟩

/-- A time that needs no tag: a date alone has two digits for the month and the day. -/
def isTimeForm (s : List Char) : Bool :=
  match timeText? s with
  | some t => t.clock.isSome || (t.month.length = 2 && t.day.length = 2)
  | none => false

-- ---------------------------------------------------------------------------
-- The implied tag
-- ---------------------------------------------------------------------------

/-- The kinds of scalars in the order in which they are tried: the first characters, the form, the tag. -/
def forms : List (String × (List Char → Bool) × String) := [
  ("yYnNtTfFoO", isBoolForm, bool),
  ("-+0123456789.", isFloatForm, float),
  ("-+0123456789", isIntForm, int),
  ("<", fun s => s == ['<', '<'], merge),
  ("~nN", isNullForm, null),
  ("0123456789", isTimeForm, timestamp),
  ("=", fun s => s == ['='], value),
  ("!&*", fun s => s == ['!'] || s == ['&'] || s == ['*'], yaml)]

/-- The tag of a scalar by its form. -/
def ofPlain (text : String) : String :=
  match text.toList with
  | [] => null
  | c :: r =>
    match forms.find? fun (firsts, fits, _) => firsts.toList.contains c && fits (dropFinalBreak (c :: r)) with
    | some (_, _, tag) => tag
    | none => str

end TestDiscovery.Yaml.Tag
