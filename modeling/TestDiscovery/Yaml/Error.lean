-- SUMMARY: Why a YAML text has no value.
/-!
# Errors of YAML texts

A text is invalid if one of its characters, tokens, nestings or values breaks a rule of the format. Some texts are
not refused by a rule; reading breaks down on them. Running out of memory is not described.
-/

namespace TestDiscovery.Yaml

/-- Which rule a text breaks. -/
inductive Invalid where
  /-- Bytes that are no text. -/
  | undecodable
  /-- A character that no text may hold. -/
  | unprintable
  /-- No token can be read. -/
  | badToken
  /-- A token stands where the grammar has no place for it. -/
  | misplacedToken
  /-- An anchor is defined twice or not at all, or there are two documents. -/
  | badReference
  /-- A value does not fit its tag. -/
  | badValue
deriving DecidableEq, Repr

/-- Where reading breaks down. -/
inductive Breakdown where
  /-- An escape names a character beyond every range. -/
  | hugeCharacter
  /-- A number has no characters. -/
  | emptyNumber
  /-- A text that is tagged as a time is none. -/
  | notATime
  /-- A number in base 60 has too many places. -/
  | hugeNumber
  /-- The nesting is too deep. -/
  | tooDeep
deriving DecidableEq, Repr

def Breakdown.message : Breakdown → String
  | hugeCharacter => "Python int too large to convert to C int"
  | emptyNumber => "string index out of range"
  | notATime => "'NoneType' object has no attribute 'groupdict'"
  | hugeNumber => "int too large to convert to float"
  | tooDeep => "maximum recursion depth exceeded"

inductive Error where
  | invalid (cause : Invalid)
  | breakdown (cause : Breakdown)
deriving DecidableEq, Repr

namespace Error

def undecodable : Error := invalid .undecodable
def unprintable : Error := invalid .unprintable
def badToken : Error := invalid .badToken
def misplacedToken : Error := invalid .misplacedToken
def badReference : Error := invalid .badReference
def badValue : Error := invalid .badValue
def hugeCharacter : Error := breakdown .hugeCharacter
def emptyNumber : Error := breakdown .emptyNumber
def notATime : Error := breakdown .notATime
def hugeNumber : Error := breakdown .hugeNumber
def tooDeep : Error := breakdown .tooDeep

end Error

end TestDiscovery.Yaml
