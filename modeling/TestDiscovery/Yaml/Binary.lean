-- SUMMARY: Bytes of YAML texts, written in base 64.
import TestDiscovery.Yaml.Error

/-!
# Base 64

Four characters stand for three bytes. Characters outside the alphabet are skipped. Reading ends when an equals sign
completes a group of four; a group that is begun must be complete at the end.
-/

namespace TestDiscovery.Yaml.Binary

/-- The six bits of a character. -/
def sextet? (c : Char) : Option Nat :=
  if 'A' ≤ c && c ≤ 'Z' then some (c.toNat - 65)
  else if 'a' ≤ c && c ≤ 'z' then some (c.toNat - 97 + 26)
  else if '0' ≤ c && c ≤ '9' then some (c.toNat - 48 + 52)
  else if c = '+' then some 62
  else if c = '/' then some 63
  else none

/-- The bytes from a state on: how many characters of the group are read, the bits left of the last of them, and how
many equals signs have followed it. -/
def decodeFrom (read left pads : Nat) : List Char → Except Error (List UInt8)
  | [] => if read = 0 then .ok [] else .error .badValue
  | c :: r =>
    if c = '=' then
      if 2 ≤ read then
        if 4 ≤ read + pads + 1 then .ok [] else decodeFrom read left (pads + 1) r
      else decodeFrom read left pads r
    else match sextet? c with
      | none => decodeFrom read left pads r
      | some bits =>
        if read = 0 then decodeFrom 1 bits 0 r
        else if read = 1 then (UInt8.ofNat (left * 4 + bits / 16) :: ·) <$> decodeFrom 2 (bits % 16) 0 r
        else if read = 2 then (UInt8.ofNat (left * 16 + bits / 4) :: ·) <$> decodeFrom 3 (bits % 4) 0 r
        else (UInt8.ofNat (left * 64 + bits) :: ·) <$> decodeFrom 0 0 0 r

/-- The bytes that a text stands for, which holds ASCII only. -/
def decode (s : List Char) : Except Error (List UInt8) :=
  if s.all fun c => c.toNat < 128 then decodeFrom 0 0 0 s else .error .badValue

end TestDiscovery.Yaml.Binary
