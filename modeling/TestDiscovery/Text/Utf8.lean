-- SUMMARY: Reading bytes as text in UTF-8, and what is wrong with the first bytes that are not.
/-!
# UTF-8

A byte sequence is read from the front. The first sequence that is no character ends the reading; the error
says where it starts, how many of its bytes belong together, and why: no character starts with such a byte,
a byte inside is no continuation, or the input ends inside.
-/

namespace TestDiscovery.Text.Utf8

inductive Cause where
  | invalidStart
  | invalidContinuation
  | unexpectedEnd
deriving DecidableEq, Repr

/-- The first bad sequence of an input: its offset, its bytes and the cause. -/
structure Error where
  offset : Nat
  bytes : List UInt8
  cause : Cause
deriving DecidableEq, Repr

def Cause.message : Cause → String
  | invalidStart => "invalid start byte"
  | invalidContinuation => "invalid continuation byte"
  | unexpectedEnd => "unexpected end of data"

-- ---------------------------------------------------------------------------
-- Shape of a sequence
-- ---------------------------------------------------------------------------

/-- Whether a byte continues a sequence. -/
def isContinuation (b : UInt8) : Bool := 0x80 ≤ b && b ≤ 0xBF

/-- Whether `b` may come second after `a`: overlong forms, surrogates and values beyond the last character are
left out here. -/
def isSecond (a b : UInt8) : Bool :=
  isContinuation b && (a != 0xE0 || 0xA0 ≤ b) && (a != 0xED || b ≤ 0x9F) && (a != 0xF0 || 0x90 ≤ b) &&
    (a != 0xF4 || b ≤ 0x8F)

/-- The six bits that a continuation carries. -/
def payload (b : UInt8) : Nat := b.toNat % 64

-- ---------------------------------------------------------------------------
-- Reading
-- ---------------------------------------------------------------------------

/-- The characters of the bytes from offset `n` on. -/
def decodeFrom (n : Nat) : List UInt8 → Except Error (List Char)
  | [] => .ok []
  | a :: r =>
    if a < 0x80 then (Char.ofNat a.toNat :: ·) <$> decodeFrom (n + 1) r
    else if a < 0xC2 || 0xF4 < a then .error ⟨n, [a], .invalidStart⟩
    else match r with
      | [] => .error ⟨n, [a], .unexpectedEnd⟩
      | b :: r =>
        if !isSecond a b then .error ⟨n, [a], .invalidContinuation⟩
        else if a < 0xE0 then
          (Char.ofNat (a.toNat % 32 * 64 + payload b) :: ·) <$> decodeFrom (n + 2) r
        else match r with
          | [] => .error ⟨n, [a, b], .unexpectedEnd⟩
          | c :: r =>
            if !isContinuation c then .error ⟨n, [a, b], .invalidContinuation⟩
            else if a < 0xF0 then
              (Char.ofNat ((a.toNat % 16 * 64 + payload b) * 64 + payload c) :: ·) <$> decodeFrom (n + 3) r
            else match r with
              | [] => .error ⟨n, [a, b, c], .unexpectedEnd⟩
              | d :: r =>
                if !isContinuation d then .error ⟨n, [a, b, c], .invalidContinuation⟩
                else
                  (Char.ofNat (((a.toNat % 8 * 64 + payload b) * 64 + payload c) * 64 + payload d) :: ·) <$>
                    decodeFrom (n + 4) r

/-- The text that bytes stand for. -/
def decode (bytes : List UInt8) : Except Error (List Char) := decodeFrom 0 bytes

/-- The bytes of a text. -/
def encode (s : List Char) : List UInt8 := s.flatMap String.utf8EncodeChar

end TestDiscovery.Text.Utf8
