-- SUMMARY: The shortest decimal text that reads back as a double.
import TestDiscovery.Number.Double

/-!
# Shortest decimals

A finite double is written with the fewest decimal digits that lie in the interval of reals rounding to it;
among those digits the nearest to the exact value are taken. The ends of the interval belong to it if the
mantissa is even.
-/

namespace TestDiscovery.Double

-- ---------------------------------------------------------------------------
-- Digits
-- ---------------------------------------------------------------------------

/-- A positive number as the fraction `num / den`, with the half distances to its neighbours over the same
denominator. -/
structure Interval where
  num : Nat
  den : Nat
  below : Nat
  above : Nat
  closed : Bool
deriving Repr

/-- The interval of the reals that round to `m * 2 ^ e`. The neighbour below is nearer where the exponent
changes. -/
def interval (m : Nat) (e : Int) : Interval :=
  let edge := m = twoTo 52 ∧ minExponent < e
  let (num, den) := scale (4 * m) 4 e
  let (unit, _) := scale 2 4 e
  ⟨num, den, if edge then unit / 2 else unit, unit, m % 2 = 0⟩

/-- Whether `d * 10 ^ k` lies in the interval. -/
def Interval.contains (i : Interval) (d : Nat) (k : Int) : Bool :=
  let (a, b) := if 0 ≤ k then (d * tenTo k.toNat, 1) else (d, tenTo (-k).toNat)
  let value := a * i.den
  let low := (i.num - i.below) * b
  let high := (i.num + i.above) * b
  if i.closed then low ≤ value && value ≤ high else low < value && value < high

/-- The distance from `d * 10 ^ k` to the number itself, over the common denominator. -/
def Interval.distance (i : Interval) (d : Nat) (k : Int) : Nat :=
  let (a, b) := if 0 ≤ k then (d * tenTo k.toNat, 1) else (d, tenTo (-k).toNat)
  ((a * i.den : Int) - i.num * b).natAbs

/-- The power of ten just above the number. -/
def Interval.magnitude (i : Interval) : Int :=
  let guess : Int := (toString i.num).length - (toString i.den).length
  let (a, b) := if 0 ≤ guess then (tenTo guess.toNat, 1) else (1, tenTo (-guess).toNat)
  if a * i.den ≤ i.num * b then guess + 1 else guess

/-- The best decimal with the unit `10 ^ k` in the interval: the nearer of the number's two neighbours. -/
def Interval.candidate? (i : Interval) (k : Int) : Option Nat :=
  let (a, b) := if 0 ≤ k then (tenTo k.toNat, 1) else (1, tenTo (-k).toNat)
  let low := i.num * b / (i.den * a)
  match i.contains low k && low != 0, i.contains (low + 1) k with
  | true, true =>
    if i.distance low k < i.distance (low + 1) k then some low
    else if i.distance (low + 1) k < i.distance low k then some (low + 1)
    else some (if low % 2 = 0 then low else low + 1)
  | true, false => some low
  | false, true => some (low + 1)
  | false, false => none

/-- The shortest decimal in the interval with at least `17 - fuel` digits. -/
def Interval.shortest (i : Interval) (magnitude : Int) : Nat → Nat × Int
  | 0 => (0, 0)
  | fuel + 1 =>
    let k := magnitude - (17 - fuel : Nat)
    match i.candidate? k with
    | some d => (d, k)
    | none => i.shortest magnitude fuel

/-- The shortest decimal `d * 10 ^ k` that rounds to the positive number `m * 2 ^ e`. -/
def shortest (m : Nat) (e : Int) : Nat × Int :=
  let i := interval m e
  i.shortest i.magnitude 17

-- ---------------------------------------------------------------------------
-- Text
-- ---------------------------------------------------------------------------

/-- A decimal number: its digits without zeros at the end, and the place of the point behind the first digits. -/
def digitsAndPoint (d : Nat) (k : Int) : List Char × Int :=
  let digits := (toString d).toList
  let point : Int := digits.length + k
  let trimmed := (digits.reverse.dropWhile (· == '0')).reverse
  (if trimmed.isEmpty then ['0'] else trimmed, point)

/-- Two digits at least. -/
def exponentText (n : Nat) : List Char :=
  let digits := (toString n).toList
  if digits.length < 2 then '0' :: digits else digits

/-- Digits with a point after the first `point` of them: in positional notation below 10^16 and down to 10^-4,
with an exponent otherwise. -/
def decimalText (digits : List Char) (point : Int) : List Char :=
  if -4 < point ∧ point ≤ 16 then
    if point ≤ 0 then '0' :: '.' :: List.replicate (-point).toNat '0' ++ digits
    else
      let whole := digits.take point.toNat ++ List.replicate (point.toNat - digits.length) '0'
      let rest := digits.drop point.toNat
      whole ++ '.' :: (if rest.isEmpty then ['0'] else rest)
  else
    let exponent := point - 1
    let tail := digits.drop 1
    digits.take 1 ++ (if tail.isEmpty then [] else '.' :: tail) ++ 'e' :: (if exponent < 0 then '-' else '+') ::
      exponentText exponent.natAbs

/-- The text of a double. -/
def text : Double → List Char
  | nan => ['n', 'a', 'n']
  | infinite s => if s then ['-', 'i', 'n', 'f'] else ['i', 'n', 'f']
  | finite s m e =>
    let body :=
      if m = 0 then ['0', '.', '0']
      else
        let (d, k) := shortest m e
        let (digits, point) := digitsAndPoint d k
        decimalText digits point
    if s then '-' :: body else body

end TestDiscovery.Double
