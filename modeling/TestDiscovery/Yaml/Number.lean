-- SUMMARY: Numbers of YAML texts: whole numbers in several bases, and floating-point numbers.
import TestDiscovery.Number.Double
import TestDiscovery.Text.Digit
import TestDiscovery.Text.Lines
import TestDiscovery.Text.Lower
import TestDiscovery.Yaml.Error
import TestDiscovery.Yaml.Tag

/-!
# Numbers

Underscores in numbers do not count. A whole number is in base 2, 8 or 16 by its first characters, in base 60 if it
has colons, and in base 10 otherwise. Numbers in base 10 have a largest length, both in reading and in writing.
-/

namespace TestDiscovery.Yaml

/-- The most digits of a number in base 10. -/
def maxDigits : Nat := 4300

/-- A number without its underscores. -/
def dropBars (s : List Char) : List Char := s.filter (· != '_')

/-- The letter after the zero that may mark a base. -/
def baseLetter (base : Nat) : List Char :=
  if base = 2 then ['b', 'B'] else if base = 8 then ['o', 'O'] else if base = 16 then ['x', 'X'] else []

/-- Digits in a base, perhaps after the mark of the base. -/
def dropBaseMark (base : Nat) : List Char → List Char
  | a :: b :: r => if Text.digit? a = some 0 && (baseLetter base).contains b then r else a :: b :: r
  | s => s

/-- The whole number that a text spells in a base, with a sign and blanks around it. -/
def wholeIn (base : Nat) (s : List Char) : Except Error Int :=
  let s := Text.trimNumber s
  let digits := dropBaseMark base (Tag.dropSign s)
  if digits.isEmpty || (base = 10 && maxDigits < digits.length) then .error .badValue
  else match Text.digitsValue? base digits with
    | none => .error .badValue
    | some n => .ok (if s.head? = some '-' then -n else n)

/-- The sum of parts in base 60, the last of them with the weight one. -/
def sixtieths (parts : List Int) : Int := parts.foldl (fun n part => n * 60 + part) 0

/-- The whole number that a text spells. -/
def whole (text : List Char) : Except Error Int := do
  let s := dropBars text
  let body := Tag.dropSign s
  let sign : Int := if s.head? = some '-' then -1 else 1
  let n ←
    match body with
    | [] => .error .emptyNumber
    | ['0'] => pure 0
    | '0' :: 'b' :: r => wholeIn 2 r
    | '0' :: 'x' :: r => wholeIn 16 r
    | '0' :: _ => wholeIn 8 body
    | _ =>
      if body.contains ':' then do
        let parts ← (Text.splitOn ':' body).mapM (wholeIn 10)
        pure (sixtieths parts)
      else wholeIn 10 body
  return sign * n

-- ---------------------------------------------------------------------------
-- Floating point
-- ---------------------------------------------------------------------------

/-- Digits, a point and an exponent without a sign in front. -/
def unsignedDecimal (negative : Bool) (s : List Char) : Except Error Double :=
  let isDecimal (c : Char) := (Text.decimalDigit? c).isSome
  let before := s.takeWhile isDecimal
  let s := s.drop before.length
  let (after, s) := match s with
    | '.' :: r => (r.takeWhile isDecimal, r.dropWhile isDecimal)
    | _ => ([], s)
  let exponent : Option Int := match s with
    | [] => some 0
    | e :: r =>
      let digits := Tag.dropSign r
      if (e = 'e' || e = 'E') && !digits.isEmpty && digits.all isDecimal then
        (Text.digitsValue? 10 digits).map fun n => if r.head? = some '-' then -n else n
      else none
  match exponent, Text.digitsValue? 10 (before ++ after) with
  | some e, some m =>
    if before.isEmpty && after.isEmpty then .error .badValue else .ok (.ofDecimal negative m (e - after.length))
  | _, _ => .error .badValue

/-- The number that a text in small letters spells, with a sign and blanks around it. -/
def decimal (text : List Char) : Except Error Double :=
  let s := Text.trimNumber text
  let negative := s.head? = some '-'
  let body := Tag.dropSign s
  if ["inf", "infinity"].contains (String.ofList body) then .ok (.infinite negative)
  else if body == ['n', 'a', 'n'] then .ok .nan
  else unsignedDecimal negative body

/-- The sum of parts in base 60 from the last one on, which has the weight `weight`. -/
def floatSixtieths (sum : Double) (weight : Nat) : List Double → Except Error Double
  | [] => .ok sum
  | part :: rest =>
    match Double.ofNat weight with
    | .infinite _ => .error .hugeNumber
    | w => floatSixtieths (sum.add (part.mul w)) (weight * 60) rest

/-- The floating-point number that a text spells. -/
def float (text : List Char) : Except Error Double := do
  let s := Text.toLower (dropBars text)
  if s.isEmpty then .error .emptyNumber
  let body := Tag.dropSign s
  let number ←
    if body == ['.', 'i', 'n', 'f'] then pure (.infinite false)
    else if body == ['.', 'n', 'a', 'n'] then return .nan
    else if body.contains ':' then do
      let parts ← (Text.splitOn ':' body).mapM decimal
      floatSixtieths .zero 1 parts.reverse
    else decimal body
  return if s.head? = some '-' then number.negate else number

end TestDiscovery.Yaml
