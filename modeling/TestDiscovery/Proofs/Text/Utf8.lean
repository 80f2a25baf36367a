-- SUMMARY: Text written in UTF-8 is read as itself.
import TestDiscovery.Text.Utf8

/-!
# Reading what was written in UTF-8

A character is written in one to four bytes, by the size of its code point. The first byte says how many there are and
the others are continuations, so reading takes the same bytes back and comes to the same code point.
-/

namespace TestDiscovery.Text.Utf8

/-! ## Sequences -/

section

variable {n : Nat} {a b c d : UInt8} {r : List UInt8}

/-- A first byte of several is in the range of first bytes. -/
theorem lead_of_range (ha : 0xC2 ≤ a.toNat) (ha' : a.toNat ≤ 0xF4) :
    ¬ a < 0x80 ∧ (decide (a < 0xC2) || decide (0xF4 < a)) = false := by
  simp only [UInt8.lt_iff_toNat_lt, UInt8.reduceToNat, Bool.or_eq_false_iff, decide_eq_false_iff_not]
  omega

theorem decodeFrom_one (ha : a.toNat < 0x80) :
    decodeFrom n (a :: r) = (Char.ofNat a.toNat :: ·) <$> decodeFrom (n + 1) r := by
  have hone : a < 0x80 := by
    rw [UInt8.lt_iff_toNat_lt]
    exact ha
  rw [decodeFrom.eq_def]
  exact if_pos hone

theorem decodeFrom_two (ha : 0xC2 ≤ a.toNat) (ha' : a.toNat < 0xE0) (hb : isSecond a b = true) :
    decodeFrom n (a :: b :: r) =
      (Char.ofNat (a.toNat % 32 * 64 + payload b) :: ·) <$> decodeFrom (n + 2) r := by
  obtain ⟨hone, hlead⟩ := lead_of_range ha (by omega)
  have htwo : a < 0xE0 := by
    rw [UInt8.lt_iff_toNat_lt]
    exact ha'
  rw [decodeFrom.eq_def]
  simp [hone, hlead, hb, htwo]

theorem decodeFrom_three (ha : 0xE0 ≤ a.toNat) (ha' : a.toNat < 0xF0) (hb : isSecond a b = true)
    (hc : isContinuation c = true) :
    decodeFrom n (a :: b :: c :: r) =
      (Char.ofNat ((a.toNat % 16 * 64 + payload b) * 64 + payload c) :: ·) <$> decodeFrom (n + 3) r := by
  obtain ⟨hone, hlead⟩ := lead_of_range (a := a) (by omega) (by omega)
  have htwo : ¬ a < 0xE0 := by
    rw [UInt8.lt_iff_toNat_lt]
    exact Nat.not_lt.2 ha
  have hthree : a < 0xF0 := by
    rw [UInt8.lt_iff_toNat_lt]
    exact ha'
  rw [decodeFrom.eq_def]
  simp [hone, hlead, hb, htwo, hc, hthree]

theorem decodeFrom_four (ha : 0xF0 ≤ a.toNat) (ha' : a.toNat ≤ 0xF4) (hb : isSecond a b = true)
    (hc : isContinuation c = true) (hd : isContinuation d = true) :
    decodeFrom n (a :: b :: c :: d :: r) =
      (Char.ofNat (((a.toNat % 8 * 64 + payload b) * 64 + payload c) * 64 + payload d) :: ·) <$>
        decodeFrom (n + 4) r := by
  obtain ⟨hone, hlead⟩ := lead_of_range (by omega) ha'
  have htwo : ¬ a < 0xE0 := by
    rw [UInt8.lt_iff_toNat_lt]
    exact Nat.not_lt.2 (Nat.le_trans (by decide) ha)
  have hthree : ¬ a < 0xF0 := by
    rw [UInt8.lt_iff_toNat_lt]
    exact Nat.not_lt.2 ha
  rw [decodeFrom.eq_def]
  simp [hone, hlead, hb, htwo, hthree, hc, hd]

end

/-! ## Characters -/

section

variable {x : Nat}

theorem toNat_continuation (h : x < 64) : (UInt8.ofNat (x + 128)).toNat = x + 128 := by
  rw [UInt8.toNat_ofNat']
  omega

theorem isContinuation_ofNat (h : x < 64) : isContinuation (UInt8.ofNat (x + 128)) = true := by
  simp only [isContinuation, UInt8.le_iff_toNat_le, toNat_continuation h, UInt8.reduceToNat, Bool.and_eq_true,
    decide_eq_true_eq]
  omega

theorem payload_ofNat (h : x < 64) : payload (UInt8.ofNat (x + 128)) = x := by
  rw [payload, toNat_continuation h]
  omega

/-- A continuation may come second unless the first byte asks for more. -/
theorem isSecond_ofNat {a : UInt8} (h : x < 64) (hlong : a.toNat = 0xE0 → 32 ≤ x) (hsurrogate : a.toNat = 0xED → x < 32)
    (hlong' : a.toNat = 0xF0 → 16 ≤ x) (hlast : a.toNat = 0xF4 → x < 16) :
    isSecond a (UInt8.ofNat (x + 128)) = true := by
  simp only [isSecond, isContinuation_ofNat h, UInt8.le_iff_toNat_le, toNat_continuation h, UInt8.reduceToNat,
    Bool.true_and, Bool.and_eq_true, Bool.or_eq_true, bne_iff_ne, ne_eq, decide_eq_true_eq, ← UInt8.toNat_inj]
  omega

end

/-- A written character is read back, whatever follows it. -/
theorem decodeFrom_utf8EncodeChar (n : Nat) (c : Char) (r : List UInt8) :
    ∃ m, decodeFrom n (String.utf8EncodeChar c ++ r) = (c :: ·) <$> decodeFrom m r := by
  have hvalid : c.toNat < 0xD800 ∨ 0xDFFF < c.toNat ∧ c.toNat < 0x110000 := c.valid
  have hself : Char.ofNat c.toNat = c := Char.ofNat_toNat c
  generalize hv : c.toNat = v at hvalid hself
  have hbytes : c.val.toNat = v := hv
  unfold String.utf8EncodeChar
  simp only [hbytes]
  split
  · next hone =>
    have ha : (UInt8.ofNat v).toNat = v := by rw [UInt8.toNat_ofNat']; omega
    refine ⟨n + 1, ?_⟩
    rw [List.singleton_append, decodeFrom_one (by omega), ha, hself]
  · split
    · next hone htwo =>
      have ha : (UInt8.ofNat (v / 64 % 32 + 192)).toNat = v / 64 % 32 + 192 := by rw [UInt8.toNat_ofNat']; omega
      have hlow : v % 64 < 64 := by omega
      refine ⟨n + 2, ?_⟩
      rw [List.cons_append, List.singleton_append,
        decodeFrom_two (by omega) (by omega) (isSecond_ofNat hlow (by omega) (by omega) (by omega) (by omega)),
        ha, payload_ofNat hlow]
      have hpoint : (v / 64 % 32 + 192) % 32 * 64 + v % 64 = v := by omega
      rw [hpoint, hself]
    · split
      · next hone htwo hthree =>
        have ha : (UInt8.ofNat (v / 4096 % 16 + 224)).toNat = v / 4096 % 16 + 224 := by rw [UInt8.toNat_ofNat']; omega
        have hmiddle : v / 64 % 64 < 64 := by omega
        have hlow : v % 64 < 64 := by omega
        refine ⟨n + 3, ?_⟩
        rw [List.cons_append, List.cons_append, List.singleton_append,
          decodeFrom_three (by omega) (by omega) (isSecond_ofNat hmiddle (by omega) (by omega) (by omega) (by omega))
            (isContinuation_ofNat hlow),
          ha, payload_ofNat hmiddle, payload_ofNat hlow]
        have hpoint : ((v / 4096 % 16 + 224) % 16 * 64 + v / 64 % 64) * 64 + v % 64 = v := by omega
        rw [hpoint, hself]
      · next hone htwo hthree =>
        have ha : (UInt8.ofNat (v / 262144 % 8 + 240)).toNat = v / 262144 % 8 + 240 := by rw [UInt8.toNat_ofNat']; omega
        have hhigh : v / 4096 % 64 < 64 := by omega
        have hmiddle : v / 64 % 64 < 64 := by omega
        have hlow : v % 64 < 64 := by omega
        refine ⟨n + 4, ?_⟩
        rw [List.cons_append, List.cons_append, List.cons_append, List.singleton_append,
          decodeFrom_four (by omega) (by omega) (isSecond_ofNat hhigh (by omega) (by omega) (by omega) (by omega))
            (isContinuation_ofNat hmiddle) (isContinuation_ofNat hlow),
          ha, payload_ofNat hhigh, payload_ofNat hmiddle, payload_ofNat hlow]
        have hpoint : (((v / 262144 % 8 + 240) % 8 * 64 + v / 4096 % 64) * 64 + v / 64 % 64) * 64 + v % 64 = v := by
          omega
        rw [hpoint, hself]

/-- Reading what was written gives it back. -/
theorem decode_encode (s : List Char) : decode (encode s) = .ok s := by
  have hfrom : ∀ n, decodeFrom n (encode s) = .ok s := by
    induction s with
    | nil => intro n; rfl
    | cons c s ih =>
      intro n
      obtain ⟨m, hm⟩ := decodeFrom_utf8EncodeChar n c (encode s)
      have hcons : encode (c :: s) = String.utf8EncodeChar c ++ encode s := rfl
      rw [hcons, hm, ih m]
      rfl
  exact hfrom 0

end TestDiscovery.Text.Utf8
