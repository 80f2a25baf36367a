-- SUMMARY: Floating-point numbers with 53 bits, rounding to them, and their arithmetic.
/-!
# Doubles

A double is a whole number of at most 53 bits times a power of two, the exponent bounded on both sides. A
result of arithmetic is the exact rational number rounded to the nearest double, a tie to the even one.
-/

namespace TestDiscovery

inductive Double where
  /-- The number `mantissa * 2 ^ exponent`, with its sign. -/
  | finite (negative : Bool) (mantissa : Nat) (exponent : Int)
  | infinite (negative : Bool)
  | nan
deriving DecidableEq, Repr

namespace Double

def minExponent : Int := -1074

def maxExponent : Int := 971

def zero : Double := finite false 0 minExponent

def twoTo (k : Nat) : Nat := Nat.pow 2 k

def tenTo (k : Nat) : Nat := Nat.pow 10 k

/-- `n / d` rounded to a whole number, a tie to the even one. -/
def roundDiv (n d : Nat) : Nat :=
  let q := n / d
  let r := n % d
  if 2 * r < d then q else if d < 2 * r then q + 1 else q + q % 2

/-- The number of bits of a positive number. -/
def bits (n : Nat) : Nat := if n = 0 then 0 else Nat.log2 n + 1

/-- The quotient `n / d` scaled by a power of two, as a fraction. -/
def scale (n d : Nat) (e : Int) : Nat × Nat := if 0 ≤ e then (n * twoTo e.toNat, d) else (n, d * twoTo (-e).toNat)

/-- The exponent that leaves 53 bits of `n / d` before the point, if it is not too small. -/
def exponentFor (n d : Nat) : Int :=
  let e : Int := (bits n : Int) - bits d - 53
  let (a, b) := scale n d (-e)
  let e := if twoTo 53 * b ≤ a then e + 1 else if a < twoTo 52 * b then e - 1 else e
  max e minExponent

/-- The double nearest to `n / d`. -/
def ofRatio (negative : Bool) (n d : Nat) : Double :=
  if n = 0 then finite negative 0 minExponent
  else
    let e := exponentFor n d
    let (a, b) := scale n d (-e)
    let m := roundDiv a b
    let (m, e) := if m = twoTo 53 then (twoTo 52, e + 1) else (m, e)
    if maxExponent < e then infinite negative else finite negative m e

/-- The double nearest to `m * 2 ^ e`. -/
def ofScaled (negative : Bool) (m : Nat) (e : Int) : Double :=
  let (n, d) := scale m 1 e
  ofRatio negative n d

/-- The double nearest to `m * 10 ^ e`. Exponents that are far out of range are not computed. -/
def ofDecimal (negative : Bool) (m : Nat) (e : Int) : Double :=
  let size : Int := (toString m).length + e
  if m = 0 then finite negative 0 minExponent
  else if 400 < size then infinite negative
  else if size < -400 then finite negative 0 minExponent
  else if 0 ≤ e then ofRatio negative (m * tenTo e.toNat) 1
  else ofRatio negative m (tenTo (-e).toNat)

def negate : Double → Double
  | finite s m e => finite (!s) m e
  | infinite s => infinite (!s)
  | nan => nan

/-- The signed mantissa of a finite number. -/
def signed (s : Bool) (m : Nat) : Int := if s then -m else m

def add : Double → Double → Double
  | finite s m e, finite t n f =>
    let low := min e f
    let sum := signed s m * twoTo (e - low).toNat + signed t n * twoTo (f - low).toNat
    if sum = 0 then finite (s && t) 0 minExponent else ofScaled (sum < 0) sum.natAbs low
  | infinite s, infinite t => if s = t then infinite s else nan
  | infinite s, finite .. | finite .., infinite s => infinite s
  | nan, _ | _, nan => nan

def mul : Double → Double → Double
  | finite s m e, finite t n f => ofScaled (s != t) (m * n) (e + f)
  | infinite s, infinite t => infinite (s != t)
  | infinite s, finite t m _ | finite t m _, infinite s => if m = 0 then nan else infinite (s != t)
  | nan, _ | _, nan => nan

/-- The double nearest to a whole number. -/
def ofNat (n : Nat) : Double := ofRatio false n 1

/-- The whole number that a double equals, if it is one. -/
def toInt? : Double → Option Int
  | finite s m e =>
    if 0 ≤ e then some (signed s (m * twoTo e.toNat))
    else if m % twoTo (-e).toNat = 0 then some (signed s (m / twoTo (-e).toNat)) else none
  | _ => none

end Double

end TestDiscovery
