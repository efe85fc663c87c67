import CiliumClat.Library.ByteList
import Mathlib.Data.ZMod.Basic
import Mathlib.Tactic.LinearCombination

/-!
# Ones'-complement sums

The Internet checksum adds 16-bit words with end-around carry, and end-around carry is
addition modulo `65535`.  So every question about a checksum is a question in the ring
`ZMod 65535`, where the two spellings of zero (`0` and `0xffff`) are one element and an
incremental update is a subtraction.

* `leSum` and `sum16` add the 16-bit words of a byte list, in memory order of a
  little-endian machine and in network order.  `cast_sum16` says that the two differ by the
  unit `256`, so a congruence between sums holds in one order exactly when it holds in the
  other.
* `leSum_splice` and `leSum_cut` are the incremental updates: overwriting a stretch at an even
  position changes the sum by new minus old, removing one takes it out.
* `csumAdd`, the complement and `fold16` are the machine operations: 32-bit addition with
  end-around carry, complement, and folding to 16 bits.  Their values in `ZMod 65535` are
  `cast_csumAdd`, `cast_not32` and `cast_fold16`.
* `internetChecksum` is the checksum of RFC 1071 as it is written there, word by word.  A checksum
  that is not sent as zero is known from its residue (`eq_of_cast_eq`), so any other way of
  summing gives the same one.
-/

namespace OnesComplement

open ByteList

/-! ## Sums of words -/

/-- The sum of the 16-bit words of a byte list, read in memory order; an odd last byte is
padded with zero. -/
def leSum : List UInt8 → ℕ
  | [] => 0
  | [a] => a.toNat
  | a :: b :: l => a.toNat + 256 * b.toNat + leSum l

/-- The sum of the 16-bit words of a byte list, read in network order; an odd last byte is
padded with zero. -/
def sum16 : List UInt8 → ℕ
  | [] => 0
  | [a] => 256 * a.toNat
  | a :: b :: l => 256 * a.toNat + b.toNat + sum16 l

/-- A stretch of bytes *verifies* when its words, checksum included, fold to the all-ones
word: the sum is a multiple of `65535`, and not the empty one. -/
def Verifies (l : List UInt8) : Prop :=
  0 < sum16 l ∧ sum16 l % 65535 = 0

instance (l : List UInt8) : Decidable (Verifies l) :=
  inferInstanceAs (Decidable (_ ∧ _))

theorem isUnit_256 : IsUnit (256 : ZMod 65535) :=
  IsUnit.of_mul_eq_one 256 (by decide)

/-- Memory order and network order differ by the unit `256`. -/
theorem cast_sum16 : ∀ l : List UInt8, (sum16 l : ZMod 65535) = 256 * (leSum l : ZMod 65535)
  | [] => by simp [sum16, leSum]
  | [a] => by simp [sum16, leSum]
  | a :: b :: l => by
    have h : (256 : ZMod 65535) * 256 = 1 := by decide
    rw [sum16, leSum]
    push_cast
    rw [cast_sum16 l]
    linear_combination (-(b.toNat : ZMod 65535)) * h

/-- Being a multiple of `65535` does not depend on the order. -/
theorem sum16_mod_eq_zero_iff (l : List UInt8) :
    sum16 l % 65535 = 0 ↔ (leSum l : ZMod 65535) = 0 := by
  rw [← Nat.dvd_iff_mod_eq_zero, ← ZMod.natCast_eq_zero_iff, cast_sum16,
    isUnit_256.mul_right_eq_zero]

/-- Swapping the bytes of a word multiplies it by that unit. -/
theorem cast_bswap16 (w : UInt16) : ((bswap16 w).toNat : ZMod 65535) = 256 * w.toNat := by
  have hw := w.toNat_lt
  have hcast : ((256 * w.toNat : ℕ) : ZMod 65535) = 256 * w.toNat := by
    push_cast
    rfl
  rw [← hcast, ZMod.natCast_eq_natCast_iff, Nat.ModEq, toNat_bswap16]
  omega

theorem leSum_append : ∀ {l : List UInt8}, l.length % 2 = 0 → ∀ m : List UInt8,
    leSum (l ++ m) = leSum l + leSum m
  | [], _, m => by simp [leSum]
  | [_], h, _ => by simp at h
  | a :: b :: l, h, m => by
    have hl : l.length % 2 = 0 := by
      rw [List.length_cons, List.length_cons] at h
      omega
    rw [List.cons_append, List.cons_append, leSum, leSum, leSum_append hl]
    ring

theorem leSum_le16Bytes (w : UInt16) : leSum (le16Bytes w) = w.toNat := by
  have h := w.toNat_lt
  simp only [le16Bytes, leSum, UInt8.toNat_ofNat']
  omega

/-- A 32-bit word is congruent to the sum of its halves. -/
theorem cast_leSum_le32Bytes (w : UInt32) :
    (leSum (le32Bytes w) : ZMod 65535) = w.toNat := by
  have h := w.toNat_lt
  have hs : leSum (le32Bytes w) = w.toNat % 65536 + w.toNat / 65536 := by
    simp only [le32Bytes, leSum, UInt8.toNat_ofNat']
    omega
  rw [ZMod.natCast_eq_natCast_iff, Nat.ModEq, hs]
  omega

/-- Two stretches of the same length in front of the same rest: the sums differ as the
stretches do, also when their length is odd. -/
theorem leSum_append_comm : ∀ {bs old : List UInt8}, bs.length = old.length →
    ∀ r : List UInt8, leSum (bs ++ r) + leSum old = leSum (old ++ r) + leSum bs
  | [], [], _, r => rfl
  | [x], [y], _, [] => by
    simp only [List.append_nil, leSum]
    exact Nat.add_comm _ _
  | [x], [y], _, b :: r => by
    simp only [List.cons_append, List.nil_append, leSum]
    omega
  | a :: b :: l, c :: d :: m, h, r => by
    have hl : l.length = m.length := by simpa using h
    have ih := leSum_append_comm hl r
    simp only [List.cons_append, leSum]
    omega

/-- **The incremental update.**  Overwriting a stretch at an even position takes the old words
out of the sum and puts the new ones in. -/
theorem leSum_splice {l bs : List UInt8} {off : ℕ} (hoff : off % 2 = 0)
    (h : off + bs.length ≤ l.length) :
    leSum (splice l off bs) + leSum (slice l off bs.length) = leSum l + leSum bs := by
  have hlen : (l.take off).length = off := by
    rw [List.length_take]
    omega
  have hpre := leSum_append (l := l.take off) (by rwa [hlen])
  have hcomm := leSum_append_comm (length_slice h).symm (l.drop (off + bs.length))
  conv_rhs => rw [← take_append_slice_append_drop l off bs.length]
  rw [splice, hpre, hpre]
  omega

/-- Taking out an even stretch at an even position takes its words out of the sum. -/
theorem leSum_cut {l : List UInt8} {off n : ℕ} (hoff : off % 2 = 0) (hn : n % 2 = 0)
    (h : off + n ≤ l.length) : leSum (cut l off n) + leSum (slice l off n) = leSum l := by
  have hlen : (l.take off).length = off := by
    rw [List.length_take]
    omega
  have hslice := length_slice h
  conv_rhs => rw [← take_append_slice_append_drop l off n]
  rw [cut, leSum_append (by rwa [hlen]), leSum_append (by rwa [hlen]),
    leSum_append (by rwa [hslice])]
  omega

theorem leSum_zeros (n : ℕ) : leSum (List.replicate n 0) = 0 := by
  induction n using Nat.twoStepInduction with
  | zero => rfl
  | one => rfl
  | more n ih _ =>
    rw [List.replicate_succ, List.replicate_succ, leSum, ih]
    rfl

/-- Trailing zeros add nothing, also behind an odd number of bytes. -/
theorem leSum_append_zeros (n : ℕ) : ∀ l : List UInt8,
    leSum (l ++ List.replicate n 0) = leSum l
  | [] => leSum_zeros n
  | [a] => by
    cases n with
    | zero => rfl
    | succ n =>
      rw [List.replicate_succ, List.cons_append, List.nil_append, leSum, leSum, leSum_zeros]
      rfl
  | a :: b :: l => by
    rw [List.cons_append, List.cons_append, leSum, leSum, leSum_append_zeros n l]

/-- The incremental update of one word. -/
theorem cast_leSum_splice16 {l : List UInt8} {off : ℕ} (hoff : off % 2 = 0)
    (h : off + 2 ≤ l.length) (w : UInt16) :
    (leSum (splice l off (le16Bytes w)) : ZMod 65535)
      = leSum l - (load16 l off).toNat + w.toNat := by
  have hs : leSum (splice l off (le16Bytes w)) + leSum (slice l off (le16Bytes w).length)
      = leSum l + leSum (le16Bytes w) := leSum_splice hoff (by simpa using h)
  rw [length_le16Bytes, slice_two h, leSum_le16Bytes, leSum_le16Bytes] at hs
  have hc := congrArg (Nat.cast (R := ZMod 65535)) hs
  push_cast at hc
  linear_combination hc

/-- The same in front of more bytes. -/
theorem cast_leSum_splice16_append {l : List UInt8} {off : ℕ} (hoff : off % 2 = 0)
    (h : off + 2 ≤ l.length) (w : UInt16) (rest : List UInt8) :
    (leSum (splice l off (le16Bytes w) ++ rest) : ZMod 65535) =
      leSum (l ++ rest) - (load16 l off).toNat + w.toNat := by
  have hfits : off + 2 ≤ (l ++ rest).length := by
    rw [List.length_append]
    omega
  rw [← splice_append_left (by rwa [length_le16Bytes]), cast_leSum_splice16 hoff hfits,
    load16_append_left h]

/-! ## The machine operations -/

/-- 32-bit addition with end-around carry. -/
def csumAdd (a b : UInt32) : UInt32 :=
  let r := a + b
  r + if r < b then 1 else 0

/-- Fold a 32-bit sum to 16 bits. -/
def fold16 (s : UInt32) : UInt16 :=
  let s : UInt32 := (s &&& (0xffff : UInt32)) + (s >>> (16 : UInt32))
  let s : UInt32 := (s &&& (0xffff : UInt32)) + (s >>> (16 : UInt32))
  s.toUInt16

theorem cast_not32 (w : UInt32) : ((~~~w).toNat : ZMod 65535) = -w.toNat := by
  have h := w.toNat_lt
  have hn : (~~~w).toNat + w.toNat = 65535 * 65537 := by
    rw [UInt32.toNat_not, UInt32.size]
    omega
  have hc := congrArg (Nat.cast (R := ZMod 65535)) hn
  rw [Nat.cast_add, Nat.cast_mul, ZMod.natCast_self, zero_mul] at hc
  exact eq_neg_of_add_eq_zero_left hc

theorem cast_not16 (w : UInt16) : ((~~~w).toNat : ZMod 65535) = -w.toNat := by
  have h := w.toNat_lt
  have hn : (~~~w).toNat + w.toNat = 65535 := by
    rw [UInt16.toNat_not, UInt16.size]
    omega
  have hc := congrArg (Nat.cast (R := ZMod 65535)) hn
  rw [Nat.cast_add, ZMod.natCast_self] at hc
  exact eq_neg_of_add_eq_zero_left hc

theorem toNat_csumAdd (a b : UInt32) :
    (csumAdd a b).toNat =
      if a.toNat + b.toNat < 2 ^ 32 then a.toNat + b.toNat else a.toNat + b.toNat + 1 - 2 ^ 32 := by
  have ha := a.toNat_lt
  have hb := b.toNat_lt
  have hr : (a + b < b) ↔ ¬ a.toNat + b.toNat < 2 ^ 32 := by
    rw [UInt32.lt_iff_toNat_lt, UInt32.toNat_add]
    omega
  show (a + b + if a + b < b then 1 else 0).toNat = _
  by_cases h : a.toNat + b.toNat < 2 ^ 32
  · rw [if_pos h, if_neg (by rw [hr]; exact not_not.mpr h), UInt32.toNat_add, UInt32.toNat_add,
      UInt32.toNat_zero]
    omega
  · rw [if_neg h, if_pos (hr.mpr h), UInt32.toNat_add, UInt32.toNat_add, UInt32.toNat_one]
    omega

theorem cast_csumAdd (a b : UInt32) :
    ((csumAdd a b).toNat : ZMod 65535) = a.toNat + b.toNat := by
  rw [toNat_csumAdd, ← Nat.cast_add, ZMod.natCast_eq_natCast_iff, Nat.ModEq]
  split <;> omega

theorem toNat_fold16 (s : UInt32) :
    (fold16 s).toNat =
      (s.toNat % 65536 + s.toNat / 65536) % 65536
        + (s.toNat % 65536 + s.toNat / 65536) / 65536 := by
  have h := s.toNat_lt
  have half : ∀ x : UInt32,
      ((x &&& (0xffff : UInt32)) + (x >>> (16 : UInt32))).toNat
        = x.toNat % 65536 + x.toNat / 65536 := by
    intro x
    have hx := x.toNat_lt
    have hand : (x &&& (0xffff : UInt32)).toNat = x.toNat % 65536 := by
      rw [UInt32.toNat_and]
      exact Nat.and_two_pow_sub_one_eq_mod x.toNat 16
    have hshift : (x >>> (16 : UInt32)).toNat = x.toNat / 65536 := by
      rw [UInt32.toNat_shiftRight]
      exact Nat.shiftRight_eq_div_pow x.toNat 16
    rw [UInt32.toNat_add, hand, hshift]
    omega
  rw [fold16, UInt32.toNat_toUInt16, half, half]
  omega

theorem cast_fold16 (s : UInt32) : ((fold16 s).toNat : ZMod 65535) = s.toNat := by
  rw [toNat_fold16, ZMod.natCast_eq_natCast_iff, Nat.ModEq]
  omega

/-- A sum folds to the all-ones word exactly if it is a multiple of `65535`, and not zero. -/
theorem fold16_eq_ones_iff (s : UInt32) :
    fold16 s = 0xffff ↔ 0 < s.toNat ∧ s.toNat % 65535 = 0 := by
  have h := s.toNat_lt
  rw [← UInt16.toNat_inj, toNat_fold16, show (0xffff : UInt16).toNat = 65535 from rfl]
  omega

theorem fold16_eq_zero_iff (s : UInt32) : fold16 s = 0 ↔ s = 0 := by
  have h := s.toNat_lt
  rw [← UInt16.toNat_inj, ← UInt32.toNat_inj, toNat_fold16, UInt16.toNat_zero, UInt32.toNat_zero]
  omega

theorem csumAdd_eq_zero_iff (a b : UInt32) : csumAdd a b = 0 ↔ a = 0 ∧ b = 0 := by
  have ha := a.toNat_lt
  have hb := b.toNat_lt
  rw [← UInt32.toNat_inj, ← UInt32.toNat_inj, ← UInt32.toNat_inj, toNat_csumAdd,
    UInt32.toNat_zero]
  split
  · omega
  · omega

/-- **A lost carry.**  A 32-bit addition without the end-around carry is off by that carry. -/
theorem cast_add32 (a b : UInt32) :
    ((a + b).toNat : ZMod 65535) + (if a.toNat + b.toNat < 2 ^ 32 then 0 else 1)
      = a.toNat + b.toNat := by
  have ha := a.toNat_lt
  have hb := b.toNat_lt
  have hsum : (a + b).toNat + (if a.toNat + b.toNat < 2 ^ 32 then 0 else 1)
      ≡ a.toNat + b.toNat [MOD 65535] := by
    rw [UInt32.toNat_add, Nat.ModEq]
    split <;> omega
  have hcast := (ZMod.natCast_eq_natCast_iff _ _ _).mpr hsum
  push_cast at hcast
  exact hcast

/-! ## The checksum -/

/-- 16-bit addition with end-around carry. -/
def csumAdd16 (a b : UInt16) : UInt16 :=
  let r := a + b
  r + if r < b then 1 else 0

/-- The 16-bit words of a byte list added to `sum`, one after the other; an odd last byte is
padded with zero. -/
def wordSum : List UInt8 → UInt16 → UInt16
  | [], sum => sum
  | [a], sum => csumAdd16 sum (le16 a 0)
  | a :: b :: l, sum => wordSum l (csumAdd16 sum (le16 a b))

/-- The checksum of RFC 1071 over a byte list, on top of the sum `seed` of what is not in the
list: the complement of the ones'-complement sum of all words. -/
def internetChecksum (seed : UInt32) (l : List UInt8) : UInt16 :=
  ~~~wordSum l (fold16 seed)

/-- Where zero stands for no checksum, a checksum of zero is sent in its other spelling. -/
def sentChecksum (w : UInt16) : UInt16 :=
  if w = 0 then 0xffff else w

theorem cast_csumAdd16 (a b : UInt16) :
    ((csumAdd16 a b).toNat : ZMod 65535) = a.toNat + b.toNat := by
  have ha := a.toNat_lt
  have hb := b.toNat_lt
  have hr : (a + b < b) ↔ ¬ a.toNat + b.toNat < 2 ^ 16 := by
    rw [UInt16.lt_iff_toNat_lt, UInt16.toNat_add]
    omega
  rw [← Nat.cast_add, ZMod.natCast_eq_natCast_iff, Nat.ModEq]
  show (a + b + if a + b < b then 1 else 0).toNat % 65535 = _
  by_cases h : a.toNat + b.toNat < 2 ^ 16
  · rw [if_neg (by rw [hr]; exact not_not.mpr h), UInt16.toNat_add, UInt16.toNat_add,
      UInt16.toNat_zero]
    omega
  · rw [if_pos (hr.mpr h), UInt16.toNat_add, UInt16.toNat_add, UInt16.toNat_one]
    omega

theorem cast_wordSum : ∀ (l : List UInt8) (sum : UInt16),
    ((wordSum l sum).toNat : ZMod 65535) = sum.toNat + leSum l
  | [], sum => by
    rw [wordSum, leSum, Nat.cast_zero, add_zero]
  | [a], sum => by
    rw [wordSum, cast_csumAdd16, toNat_le16, leSum, UInt8.toNat_zero]
    rfl
  | a :: b :: l, sum => by
    rw [wordSum, cast_wordSum l, cast_csumAdd16, toNat_le16, leSum]
    push_cast
    ring

theorem cast_internetChecksum (seed : UInt32) (l : List UInt8) :
    ((internetChecksum seed l).toNat : ZMod 65535) = -(seed.toNat + leSum l) := by
  rw [internetChecksum, cast_not16, cast_wordSum, cast_fold16]

theorem cast_sentChecksum (w : UInt16) :
    ((sentChecksum w).toNat : ZMod 65535) = w.toNat := by
  rw [sentChecksum]
  split
  · next h =>
    rw [h]
    rfl
  · rfl

theorem sentChecksum_ne_zero (w : UInt16) : sentChecksum w ≠ 0 := by
  rw [sentChecksum]
  split
  · decide
  · next h => exact h

/-- **A word that is not zero is known from its residue.** -/
theorem eq_of_cast_eq {v w : UInt16} (hv : v ≠ 0) (hw : w ≠ 0)
    (h : (v.toNat : ZMod 65535) = w.toNat) : v = w := by
  have hv' := v.toNat_lt
  have hw' := w.toNat_lt
  rw [ne_eq, ← UInt16.toNat_inj, UInt16.toNat_zero] at hv hw
  rw [ZMod.natCast_eq_natCast_iff, Nat.ModEq] at h
  rw [← UInt16.toNat_inj]
  omega

end OnesComplement
