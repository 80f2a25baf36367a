-- SUMMARY: Dates and times of YAML texts, and how they are written.
import TestDiscovery.Yaml.Error
import TestDiscovery.Yaml.Tag

/-!
# Dates and times

A time is a date, alone or with a time of day, which may have an offset from universal time of less than a day. Times
are written in two ways: by themselves in digits, and inside other values as the call that makes them.
-/

namespace TestDiscovery.Yaml

structure Date where
  year : Nat
  month : Nat
  day : Nat
deriving DecidableEq, Repr

/-- A time of day on a date; the offset from universal time is in minutes. -/
structure DateTime where
  date : Date
  hour : Nat
  minute : Nat
  second : Nat
  microsecond : Nat
  offset : Option Int
deriving DecidableEq, Repr

-- ---------------------------------------------------------------------------
-- Calendar
-- ---------------------------------------------------------------------------

def isLeapYear (year : Nat) : Bool := year % 4 = 0 && (year % 100 != 0 || year % 400 = 0)

def daysInMonth (year month : Nat) : Nat :=
  if month = 2 then (if isLeapYear year then 29 else 28)
  else if month = 4 || month = 6 || month = 9 || month = 11 then 30 else 31

namespace Date

def isValid (d : Date) : Bool :=
  1 ≤ d.year && d.year ≤ 9999 && 1 ≤ d.month && d.month ≤ 12 && 1 ≤ d.day && d.day ≤ daysInMonth d.year d.month

/-- The days since the first day of the year 1. -/
def ordinal (d : Date) : Nat :=
  let y := d.year - 1
  y * 365 + y / 4 - y / 100 + y / 400 +
    ((List.range d.month).tail.map (daysInMonth d.year)).foldl (· + ·) 0 + (d.day - 1)

end Date

namespace DateTime

def isValid (t : DateTime) : Bool :=
  t.date.isValid && t.hour ≤ 23 && t.minute ≤ 59 && t.second ≤ 59 &&
    t.offset.all fun o => -1440 < o && o < 1440

/-- The microseconds since the start of the year 1, in universal time if the offset is known. -/
def instant (t : DateTime) : Int :=
  ((((t.date.ordinal : Int) * 24 + t.hour) * 60 + t.minute - t.offset.getD 0) * 60 + t.second) * 1000000 +
    t.microsecond

/-- Times with an offset are equal if they are the same instant, times without one if they read the same. -/
def same (a b : DateTime) : Bool := a.offset.isSome == b.offset.isSome && a.instant == b.instant

end DateTime

-- ---------------------------------------------------------------------------
-- Reading
-- ---------------------------------------------------------------------------

def number (s : List Char) : Nat := (Text.digitsValue? 10 s).getD 0

/-- The first six digits of a fraction, filled up with zeros. -/
def microseconds (fraction : List Char) : Nat :=
  number (fraction.take 6 ++ List.replicate (6 - fraction.length) '0')

/-- The offset in minutes that a zone stands for. -/
def zoneOffset : Option (Char × List Char × List Char) → Int
  | none => 0
  | some (sign, hours, minutes) =>
    let offset : Int := number hours * 60 + number minutes
    if sign = '-' then -offset else offset

/-- The time that a text spells. -/
def timeOf? (s : List Char) : Except Error (Date ⊕ DateTime) :=
  match Tag.timeText? (Tag.dropFinalBreak s) with
  | none => .error .notATime
  | some t =>
    let date : Date := ⟨number t.year, number t.month, number t.day⟩
    match t.clock with
    | none => if date.isValid then .ok (.inl date) else .error .badValue
    | some (hour, minute, second, fraction) =>
      let time : DateTime := {
        date
        hour := number hour
        minute := number minute
        second := number second
        microsecond := microseconds fraction
        offset := t.zone.map zoneOffset }
      if time.isValid then .ok (.inr time) else .error .badValue

-- ---------------------------------------------------------------------------
-- Writing
-- ---------------------------------------------------------------------------

/-- A number with at least `width` digits. -/
def padded (width n : Nat) : String :=
  let digits := toString n
  String.ofList (List.replicate (width - digits.length) '0') ++ digits

def Date.text (d : Date) : String := padded 4 d.year ++ "-" ++ padded 2 d.month ++ "-" ++ padded 2 d.day

/-- An offset as a sign, hours and minutes. -/
def offsetText (offset : Int) : String :=
  (if offset < 0 then "-" else "+") ++ padded 2 (offset.natAbs / 60) ++ ":" ++ padded 2 (offset.natAbs % 60)

def DateTime.text (t : DateTime) : String :=
  t.date.text ++ " " ++ padded 2 t.hour ++ ":" ++ padded 2 t.minute ++ ":" ++ padded 2 t.second ++
    (if t.microsecond = 0 then "" else "." ++ padded 6 t.microsecond) ++
    (match t.offset with
      | none => ""
      | some offset => offsetText offset)

/-- A call with its arguments. -/
def callText (function : String) (arguments : List String) : String :=
  function ++ "(" ++ ", ".intercalate arguments ++ ")"

def Date.call (d : Date) : String := callText "datetime.date" [toString d.year, toString d.month, toString d.day]

/-- An offset as days and seconds, of which only the days may be negative. -/
def offsetCall (offset : Int) : String :=
  if offset = 0 then "datetime.timezone.utc"
  else
    let seconds := offset * 60
    let days := seconds.fdiv 86400
    callText "datetime.timezone" [callText "datetime.timedelta"
      ((if days = 0 then [] else ["days=" ++ toString days]) ++
        (if seconds.fmod 86400 = 0 then [] else ["seconds=" ++ toString (seconds.fmod 86400)]))]

def DateTime.call (t : DateTime) : String :=
  let fraction := if t.microsecond = 0 then [] else [t.microsecond]
  let seconds := if t.second = 0 && t.microsecond = 0 then [] else t.second :: fraction
  callText "datetime.datetime"
    (([t.date.year, t.date.month, t.date.day, t.hour, t.minute] ++ seconds).map toString ++
      (match t.offset with
        | none => []
        | some offset => ["tzinfo=" ++ offsetCall offset]))

end TestDiscovery.Yaml
