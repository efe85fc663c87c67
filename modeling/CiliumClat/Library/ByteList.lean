import Mathlib.Data.List.Basic
import Mathlib.Data.List.GetD
import Mathlib.Algebra.Order.Group.Nat
import Mathlib.Tactic.Ring

/-!
# Byte lists and little-endian words

A packet buffer is a list of bytes, and everything a program does to one is one of four
edits: read a stretch (`slice`), overwrite a stretch (`splice`), take a stretch out (`cut`)
and make room (`widen`).  The lemmas about them are all stated in the same shape, *at the
end of a known prefix*: an edit of `a ++ l` at position `|a| + i` is an edit of `l` at
position `i`.  A proof that follows a program through its edits then keeps the buffer as a
concatenation of named parts and never computes with indices.

Words are stored little-endian, the order of the machines in question: `load16 l i` is the
native value of the two bytes at `i`, `le16Bytes w` the two bytes of `w`, and the byte swap
`bswap16` is what turns a native value into a network one.
-/

namespace ByteList

variable {α : Type*}

/-! ## Edits -/

/-- The `n` entries from position `off` on. -/
def slice (l : List α) (off n : ℕ) : List α :=
  (l.drop off).take n

/-- Overwrite the entries from position `off` on by `bs`. -/
def splice (l : List α) (off : ℕ) (bs : List α) : List α :=
  l.take off ++ (bs ++ l.drop (off + bs.length))

/-- Take the `n` entries from position `off` on out of the list. -/
def cut (l : List α) (off n : ℕ) : List α :=
  l.take off ++ l.drop (off + n)

/-- Insert `gap` at position `off`. -/
def widen (l : List α) (off : ℕ) (gap : List α) : List α :=
  l.take off ++ (gap ++ l.drop off)

theorem length_slice {l : List α} {off n : ℕ} (h : off + n ≤ l.length) :
    (slice l off n).length = n := by
  rw [slice, List.length_take, List.length_drop]
  omega

theorem length_splice {l : List α} {off : ℕ} {bs : List α} (h : off + bs.length ≤ l.length) :
    (splice l off bs).length = l.length := by
  simp only [splice, List.length_append, List.length_take, List.length_drop]
  omega

theorem slice_add (l : List α) (off m n : ℕ) :
    slice l off (m + n) = slice l off m ++ slice l (off + m) n := by
  rw [slice, slice, slice, List.take_add, List.drop_drop]

theorem slice_zero (l : List α) (n : ℕ) : slice l 0 n = l.take n := rfl

theorem drop_eq_slice_append (l : List α) (off n : ℕ) :
    l.drop off = slice l off n ++ l.drop (off + n) := by
  rw [slice, ← List.drop_drop, List.take_append_drop]

/-- A list is a stretch of it between what comes before and what comes after. -/
theorem take_append_slice_append_drop (l : List α) (off n : ℕ) :
    l.take off ++ (slice l off n ++ l.drop (off + n)) = l := by
  rw [slice, ← List.drop_drop, List.take_append_drop, List.take_append_drop]

/-- A first element can be overwritten. -/
theorem singleton_fits (b : α) {l : List α} (h : 0 < l.length) : 0 + [b].length ≤ l.length :=
  h

section Prefix

variable {a : List α} {off : ℕ}

theorem take_append_add (ha : a.length = off) (l : List α) (i : ℕ) :
    (a ++ l).take (off + i) = a ++ l.take i := by
  rw [List.take_append, List.take_of_length_le (by omega), ha, Nat.add_sub_cancel_left]

theorem drop_append_add (ha : a.length = off) (l : List α) (i : ℕ) :
    (a ++ l).drop (off + i) = l.drop i := by
  rw [List.drop_append, List.drop_of_length_le (by omega), List.nil_append, ha,
    Nat.add_sub_cancel_left]

theorem slice_append_add (ha : a.length = off) (l : List α) (i n : ℕ) :
    slice (a ++ l) (off + i) n = slice l i n := by
  rw [slice, drop_append_add ha, slice]

theorem splice_append_add (ha : a.length = off) (l : List α) (i : ℕ) (bs : List α) :
    splice (a ++ l) (off + i) bs = a ++ splice l i bs := by
  rw [splice, splice, take_append_add ha, Nat.add_assoc, drop_append_add ha, List.append_assoc]

theorem cut_append_add (ha : a.length = off) (l : List α) (i n : ℕ) :
    cut (a ++ l) (off + i) n = a ++ cut l i n := by
  rw [cut, cut, take_append_add ha, Nat.add_assoc, drop_append_add ha, List.append_assoc]

/-- Reading the part that follows a prefix. -/
theorem slice_append (ha : a.length = off) {b : List α} {n : ℕ} (hb : b.length = n)
    (c : List α) : slice (a ++ (b ++ c)) off n = b := by
  rw [slice, List.drop_left' ha, List.take_left' hb]

/-- Overwriting the part that follows a prefix. -/
theorem splice_append (ha : a.length = off) {b bs : List α} (hb : b.length = bs.length)
    (c : List α) : splice (a ++ (b ++ c)) off bs = a ++ (bs ++ c) := by
  rw [splice, List.take_left' ha, drop_append_add ha, List.drop_left' hb]

/-- Taking out the part that follows a prefix. -/
theorem cut_append (ha : a.length = off) {b : List α} {n : ℕ} (hb : b.length = n)
    (c : List α) : cut (a ++ (b ++ c)) off n = a ++ c := by
  rw [cut, List.take_left' ha, drop_append_add ha, List.drop_left' hb]

/-- Making room behind a prefix. -/
theorem widen_append (ha : a.length = off) (c gap : List α) :
    widen (a ++ c) off gap = a ++ (gap ++ c) := by
  rw [widen, List.take_left' ha, List.drop_left' ha]

/-- Overwriting inside a prefix. -/
theorem splice_append_left {bs : List α} (h : off + bs.length ≤ a.length) (c : List α) :
    splice (a ++ c) off bs = splice a off bs ++ c := by
  rw [splice, splice, List.take_append_of_le_length (by omega),
    List.drop_append_of_le_length h, List.append_assoc, List.append_assoc]

/-- A beginning of `a ++ b` that is not shorter than `a`. -/
theorem eq_append_take {l b : List α} (h : l <+: a ++ b) (hlen : a.length ≤ l.length) :
    l = a ++ b.take (l.length - a.length) := by
  rw [List.prefix_iff_eq_take] at h
  nth_rewrite 1 [h]
  rw [List.take_append, List.take_of_length_le hlen]

end Prefix

/-- Outside the overwritten stretch nothing changes. -/
theorem getElem?_splice_of_disjoint {l bs : List α} {off i : ℕ}
    (h : off + bs.length ≤ l.length) (hi : i < off ∨ off + bs.length ≤ i) :
    (splice l off bs)[i]? = l[i]? := by
  have hlen : (l.take off).length = off := by
    rw [List.length_take]
    omega
  rcases hi with hi | hi
  · rw [splice, List.getElem?_append_left (by omega), List.getElem?_take_of_lt hi]
  · rw [splice, List.getElem?_append_right (by omega), List.getElem?_append_right (by omega),
      List.getElem?_drop, hlen]
    congr 1
    omega

/-! ## Lists that agree outside some positions -/

/-- Two lists of the same length that agree outside the positions in `P`. -/
def SameExcept (P : ℕ → Prop) (l l' : List α) : Prop :=
  l'.length = l.length ∧ ∀ i, ¬ P i → l'[i]? = l[i]?

namespace SameExcept

variable {P Q : ℕ → Prop} {l l' l'' : List α}

theorem refl (P : ℕ → Prop) (l : List α) : SameExcept P l l :=
  ⟨rfl, fun _ _ => rfl⟩

theorem trans (h : SameExcept P l l') (h' : SameExcept P l' l'') : SameExcept P l l'' :=
  ⟨h'.1.trans h.1, fun i hi => (h'.2 i hi).trans (h.2 i hi)⟩

theorem mono (h : SameExcept P l l') (hPQ : ∀ i, P i → Q i) : SameExcept Q l l' :=
  ⟨h.1, fun i hi => h.2 i fun hp => hi (hPQ i hp)⟩

/-- An overwrite changes nothing outside the stretch it overwrites. -/
theorem splice {off : ℕ} {bs : List α} (h : off + bs.length ≤ l.length)
    (hP : ∀ i, off ≤ i → i < off + bs.length → P i) :
    SameExcept P l (ByteList.splice l off bs) := by
  refine ⟨length_splice h, fun i hi => getElem?_splice_of_disjoint h ?_⟩
  by_contra hin
  exact hi (hP i (by omega) (by omega))

theorem take (h : SameExcept P l l') (n : ℕ) : SameExcept P (l.take n) (l'.take n) := by
  refine ⟨?_, fun i hi => ?_⟩
  · rw [List.length_take, List.length_take, h.1]
  · rw [List.getElem?_take, List.getElem?_take, h.2 i hi]

end SameExcept

/-! ## Little-endian words -/

/-- The native value of two bytes in memory. -/
def le16 (b₀ b₁ : UInt8) : UInt16 :=
  UInt16.ofNat (b₀.toNat + 256 * b₁.toNat)

/-- The native value of four bytes in memory. -/
def le32 (b₀ b₁ b₂ b₃ : UInt8) : UInt32 :=
  UInt32.ofNat (b₀.toNat + 256 * b₁.toNat + 65536 * b₂.toNat + 16777216 * b₃.toNat)

/-- The two bytes of a native value in memory. -/
def le16Bytes (w : UInt16) : List UInt8 :=
  [UInt8.ofNat w.toNat, UInt8.ofNat (w.toNat / 256)]

/-- The four bytes of a native value in memory. -/
def le32Bytes (w : UInt32) : List UInt8 :=
  [UInt8.ofNat w.toNat, UInt8.ofNat (w.toNat / 256), UInt8.ofNat (w.toNat / 65536),
    UInt8.ofNat (w.toNat / 16777216)]

/-- The two bytes of a number in network order. -/
def be16Bytes (n : ℕ) : List UInt8 :=
  [UInt8.ofNat (n / 256), UInt8.ofNat n]

/-- The four bytes of a number in network order. -/
def be32Bytes (n : ℕ) : List UInt8 :=
  [UInt8.ofNat (n / 16777216), UInt8.ofNat (n / 65536), UInt8.ofNat (n / 256), UInt8.ofNat n]

/-- The byte at position `off`; past the end it reads as zero. -/
def load8 (l : List UInt8) (off : ℕ) : UInt8 :=
  l.getD off 0

/-- The native 16-bit word at position `off`. -/
def load16 (l : List UInt8) (off : ℕ) : UInt16 :=
  le16 (load8 l off) (load8 l (off + 1))

/-- The native 32-bit word at position `off`. -/
def load32 (l : List UInt8) (off : ℕ) : UInt32 :=
  le32 (load8 l off) (load8 l (off + 1)) (load8 l (off + 2)) (load8 l (off + 3))

/-- Swap the bytes of a 16-bit word. -/
def bswap16 (w : UInt16) : UInt16 :=
  UInt16.ofNat (w.toNat / 256 + 256 * (w.toNat % 256))

/-- Swap the bytes of a 32-bit word. -/
def bswap32 (w : UInt32) : UInt32 :=
  UInt32.ofNat (w.toNat / 16777216 + 256 * (w.toNat / 65536 % 256)
    + 65536 * (w.toNat / 256 % 256) + 16777216 * (w.toNat % 256))

@[simp] theorem length_le16Bytes (w : UInt16) : (le16Bytes w).length = 2 := rfl

@[simp] theorem length_le32Bytes (w : UInt32) : (le32Bytes w).length = 4 := rfl

theorem toNat_le16 (b₀ b₁ : UInt8) : (le16 b₀ b₁).toNat = b₀.toNat + 256 * b₁.toNat := by
  have h₀ := b₀.toNat_lt
  have h₁ := b₁.toNat_lt
  rw [le16, UInt16.toNat_ofNat', Nat.mod_eq_of_lt (by omega)]

theorem toNat_le32 (b₀ b₁ b₂ b₃ : UInt8) :
    (le32 b₀ b₁ b₂ b₃).toNat
      = b₀.toNat + 256 * b₁.toNat + 65536 * b₂.toNat + 16777216 * b₃.toNat := by
  have h₀ := b₀.toNat_lt
  have h₁ := b₁.toNat_lt
  have h₂ := b₂.toNat_lt
  have h₃ := b₃.toNat_lt
  rw [le32, UInt32.toNat_ofNat', Nat.mod_eq_of_lt (by omega)]

theorem toNat_bswap16 (w : UInt16) :
    (bswap16 w).toNat = w.toNat / 256 + 256 * (w.toNat % 256) := by
  have h := w.toNat_lt
  rw [bswap16, UInt16.toNat_ofNat', Nat.mod_eq_of_lt (by omega)]

theorem toNat_bswap32 (w : UInt32) :
    (bswap32 w).toNat = w.toNat / 16777216 + 256 * (w.toNat / 65536 % 256)
      + 65536 * (w.toNat / 256 % 256) + 16777216 * (w.toNat % 256) := by
  have h := w.toNat_lt
  rw [bswap32, UInt32.toNat_ofNat', Nat.mod_eq_of_lt (by omega)]

@[simp] theorem bswap16_bswap16 (w : UInt16) : bswap16 (bswap16 w) = w := by
  have h := w.toNat_lt
  rw [← UInt16.toNat_inj, toNat_bswap16, toNat_bswap16]
  omega

/-- A word is recovered from its bytes. -/
theorem le16_bytes (w : UInt16) :
    le16 (UInt8.ofNat w.toNat) (UInt8.ofNat (w.toNat / 256)) = w := by
  have h := w.toNat_lt
  rw [← UInt16.toNat_inj, toNat_le16, UInt8.toNat_ofNat', UInt8.toNat_ofNat']
  omega

theorem le32_bytes (w : UInt32) :
    le32 (UInt8.ofNat w.toNat) (UInt8.ofNat (w.toNat / 256)) (UInt8.ofNat (w.toNat / 65536))
      (UInt8.ofNat (w.toNat / 16777216)) = w := by
  have h := w.toNat_lt
  rw [← UInt32.toNat_inj, toNat_le32, UInt8.toNat_ofNat', UInt8.toNat_ofNat',
    UInt8.toNat_ofNat', UInt8.toNat_ofNat']
  omega

theorem bswap32_le32 (b₀ b₁ b₂ b₃ : UInt8) : bswap32 (le32 b₀ b₁ b₂ b₃) = le32 b₃ b₂ b₁ b₀ := by
  have h₀ := b₀.toNat_lt
  have h₁ := b₁.toNat_lt
  have h₂ := b₂.toNat_lt
  have h₃ := b₃.toNat_lt
  have e := toNat_le32 b₀ b₁ b₂ b₃
  generalize le32 b₀ b₁ b₂ b₃ = w at e ⊢
  have e₃ : w.toNat / 16777216 = b₃.toNat := by omega
  have e₂ : w.toNat / 65536 % 256 = b₂.toNat := by omega
  have e₁ : w.toNat / 256 % 256 = b₁.toNat := by omega
  have e₀ : w.toNat % 256 = b₀.toNat := by omega
  rw [← UInt32.toNat_inj, toNat_bswap32, toNat_le32, e₀, e₁, e₂, e₃]

@[simp] theorem bswap32_bswap32 (w : UInt32) : bswap32 (bswap32 w) = w := by
  rw [← le32_bytes w, bswap32_le32, bswap32_le32]

/-- The bytes are recovered from the word. -/
theorem le16Bytes_le16 (b₀ b₁ : UInt8) : le16Bytes (le16 b₀ b₁) = [b₀, b₁] := by
  have h₀ := b₀.toNat_lt
  have h₁ := b₁.toNat_lt
  rw [le16Bytes, toNat_le16]
  congr 1
  · rw [← UInt8.toNat_inj, UInt8.toNat_ofNat']
    omega
  · congr 1
    rw [← UInt8.toNat_inj, UInt8.toNat_ofNat']
    omega

theorem le32Bytes_le32 (b₀ b₁ b₂ b₃ : UInt8) :
    le32Bytes (le32 b₀ b₁ b₂ b₃) = [b₀, b₁, b₂, b₃] := by
  have h₀ := b₀.toNat_lt
  have h₁ := b₁.toNat_lt
  have h₂ := b₂.toNat_lt
  have h₃ := b₃.toNat_lt
  have byte : ∀ (b : UInt8) (n : ℕ), n % 256 = b.toNat → UInt8.ofNat n = b := by
    intro b n h
    rw [← UInt8.toNat_inj, UInt8.toNat_ofNat', h]
  rw [le32Bytes, toNat_le32, byte b₀ _ (by omega), byte b₁ _ (by omega), byte b₂ _ (by omega),
    byte b₃ _ (by omega)]

theorem le32Bytes_bswap32_ofNat (n : ℕ) :
    le32Bytes (bswap32 (UInt32.ofNat n)) = be32Bytes n := by
  have hword : UInt32.ofNat n = le32 (UInt8.ofNat n) (UInt8.ofNat (n / 256))
      (UInt8.ofNat (n / 65536)) (UInt8.ofNat (n / 16777216)) := by
    rw [← UInt32.toNat_inj, toNat_le32, UInt32.toNat_ofNat', UInt8.toNat_ofNat',
      UInt8.toNat_ofNat', UInt8.toNat_ofNat', UInt8.toNat_ofNat']
    omega
  rw [hword, bswap32_le32, le32Bytes_le32, be32Bytes]

/-! ## Loads -/

theorem load8_append_add {a : List UInt8} {off : ℕ} (ha : a.length = off) (l : List UInt8)
    (i : ℕ) : load8 (a ++ l) (off + i) = load8 l i := by
  rw [load8, List.getD_append_right _ _ _ _ (by omega), ha, Nat.add_sub_cancel_left, load8]

theorem load16_append_add {a : List UInt8} {off : ℕ} (ha : a.length = off) (l : List UInt8)
    (i : ℕ) : load16 (a ++ l) (off + i) = load16 l i := by
  rw [load16, Nat.add_assoc, load8_append_add ha, load8_append_add ha, load16]

theorem load32_append_add {a : List UInt8} {off : ℕ} (ha : a.length = off) (l : List UInt8)
    (i : ℕ) : load32 (a ++ l) (off + i) = load32 l i := by
  rw [load32, Nat.add_assoc, Nat.add_assoc, Nat.add_assoc, load8_append_add ha,
    load8_append_add ha, load8_append_add ha, load8_append_add ha, load32]

theorem load8_append_left {a : List UInt8} {i : ℕ} (h : i < a.length) (l : List UInt8) :
    load8 (a ++ l) i = load8 a i := by
  rw [load8, List.getD_append _ _ _ _ h, load8]

theorem load16_append_left {a : List UInt8} {i : ℕ} (h : i + 2 ≤ a.length) (l : List UInt8) :
    load16 (a ++ l) i = load16 a i := by
  rw [load16, load8_append_left (by omega), load8_append_left (by omega), load16]

theorem load8_drop (l : List UInt8) (n i : ℕ) : load8 (l.drop n) i = load8 l (n + i) := by
  rw [load8, load8, List.getD_eq_getElem?_getD, List.getD_eq_getElem?_getD, List.getElem?_drop]

theorem load16_drop (l : List UInt8) (n i : ℕ) : load16 (l.drop n) i = load16 l (n + i) := by
  rw [load16, load8_drop, load8_drop, load16, Nat.add_assoc]

theorem load32_drop (l : List UInt8) (n i : ℕ) : load32 (l.drop n) i = load32 l (n + i) := by
  rw [load32, load8_drop, load8_drop, load8_drop, load8_drop, load32]
  simp only [Nat.add_assoc]

theorem load8_slice {l : List UInt8} {off n i : ℕ} (h : i < n) :
    load8 (slice l off n) i = load8 l (off + i) := by
  rw [← load8_drop, slice, load8, load8, List.getD_eq_getElem?_getD, List.getD_eq_getElem?_getD,
    List.getElem?_take_of_lt h]

theorem load16_slice {l : List UInt8} {off n i : ℕ} (h : i + 2 ≤ n) :
    load16 (slice l off n) i = load16 l (off + i) := by
  rw [load16, load8_slice (by omega), load8_slice (by omega), load16, Nat.add_assoc]

theorem load32_slice {l : List UInt8} {off n i : ℕ} (h : i + 4 ≤ n) :
    load32 (slice l off n) i = load32 l (off + i) := by
  rw [load32, load8_slice (by omega), load8_slice (by omega), load8_slice (by omega),
    load8_slice (by omega), load32]
  simp only [Nat.add_assoc]

/-- An overwrite is not seen by a load outside of it. -/
theorem load8_splice_of_disjoint {l bs : List UInt8} {off i : ℕ} (h : off + bs.length ≤ l.length)
    (hi : i < off ∨ off + bs.length ≤ i) : load8 (splice l off bs) i = load8 l i := by
  rw [load8, load8, List.getD_eq_getElem?_getD, List.getD_eq_getElem?_getD,
    getElem?_splice_of_disjoint h hi]

theorem load16_splice_of_disjoint {l bs : List UInt8} {off i : ℕ}
    (h : off + bs.length ≤ l.length) (hi : i + 2 ≤ off ∨ off + bs.length ≤ i) :
    load16 (splice l off bs) i = load16 l i := by
  rw [load16, load8_splice_of_disjoint h (by omega), load8_splice_of_disjoint h (by omega), load16]

theorem load8_splice_head (l : List UInt8) (b : UInt8) : load8 (splice l 0 [b]) 0 = b := rfl

theorem getElem?_eq_load8 {l : List UInt8} {i : ℕ} (h : i < l.length) :
    l[i]? = some (load8 l i) := by
  rw [load8, List.getD_eq_getElem _ _ h, List.getElem?_eq_getElem h]

/-- A change that was taken back is no change: lists that agree outside `P`, and also where `P`
holds and `Q` does not, agree outside `Q`. -/
theorem SameExcept.restore {P Q : ℕ → Prop} {l l' : List UInt8} (h : SameExcept P l l')
    (hQ : ∀ i, P i → ¬ Q i → i < l.length ∧ load8 l' i = load8 l i) : SameExcept Q l l' := by
  refine ⟨h.1, fun i hi => ?_⟩
  by_cases hP : P i
  · obtain ⟨hlt, heq⟩ := hQ i hP hi
    rw [getElem?_eq_load8 hlt, getElem?_eq_load8 (by rw [h.1]; exact hlt), heq]
  · exact h.2 i hP

/-- A byte in range is the stretch of length one there. -/
theorem slice_one {l : List UInt8} {off : ℕ} (h : off + 1 ≤ l.length) :
    slice l off 1 = [load8 l off] := by
  rw [slice, List.drop_eq_getElem_cons (by omega), List.take_succ_cons, List.take_zero, load8,
    List.getD_eq_getElem _ _ (by omega)]

theorem slice_two {l : List UInt8} {off : ℕ} (h : off + 2 ≤ l.length) :
    slice l off 2 = le16Bytes (load16 l off) := by
  rw [slice_add l off 1 1, slice_one (by omega), slice_one (by omega), load16, le16Bytes_le16]
  rfl

theorem slice_four {l : List UInt8} {off : ℕ} (h : off + 4 ≤ l.length) :
    slice l off 4 = le32Bytes (load32 l off) := by
  rw [slice_add l off 2 2, slice_add l off 1 1, slice_add l (off + 2) 1 1, slice_one (by omega),
    slice_one (by omega), slice_one (by omega), slice_one (by omega), load32, le32Bytes_le32]
  rfl

/-- Reading back a word just written. -/
theorem load16_le16Bytes (w : UInt16) (l : List UInt8) : load16 (le16Bytes w ++ l) 0 = w :=
  le16_bytes w

theorem load16_splice_self {l : List UInt8} {i : ℕ} (h : i + 2 ≤ l.length) (w : UInt16) :
    load16 (splice l i (le16Bytes w)) i = w := by
  have htake : (l.take i).length = i := by
    rw [List.length_take]
    omega
  exact (load16_append_add htake _ 0).trans (load16_le16Bytes _ _)

end ByteList
