import CiliumClat.Datapath.Common

/-!
# The helpers as functions on bytes

With the reshaping done, a program works on the part of the packet behind its new headers, and
each helper call is an edit of that byte list which either fits or does not: `loadAt`, `storeAt`
and `csumAt` are those edits, with the counter to drop with when they do not fit.  The
translations of the two directions are written in them.
-/

namespace CiliumClat

open ByteList OnesComplement

variable {key : Counter} {i : ℕ} {l out bs : List UInt8} {st : IpSummed} {flags : CsumFlags}
  {diff : UInt32}

/-- The `n` bytes at `i`. -/
def loadAt (key : Counter) (i n : ℕ) (l : List UInt8) : Except Counter (List UInt8) :=
  if i + n ≤ l.length then .ok (slice l i n) else .error key

/-- Store `bs` at `i`. -/
def storeAt (key : Counter) (i : ℕ) (bs l : List UInt8) : Except Counter (List UInt8) :=
  if i + bs.length ≤ l.length then .ok (splice l i bs) else .error key

/-- The checksum field at `i`, updated by `diff`. -/
def updateCsum (st : IpSummed) (flags : CsumFlags) (diff : UInt32) (i : ℕ) (l : List UInt8) :
    List UInt8 :=
  splice l i (le16Bytes (l4CsumField st flags (load16 l i) diff))

/-- Update the checksum field at `i` by `diff`. -/
def csumAt (key : Counter) (st : IpSummed) (flags : CsumFlags) (diff : UInt32) (i : ℕ)
    (l : List UInt8) : Except Counter (List UInt8) :=
  if i + 2 ≤ l.length then .ok (updateCsum st flags diff i l) else .error key

/-! ## Inversion -/

theorem loadAt_eq_ok {n : ℕ} :
    loadAt key i n l = .ok out ↔ i + n ≤ l.length ∧ out = slice l i n := by
  rw [loadAt]
  split
  · next h => simp [h, eq_comm]
  · next h => simp [h]

theorem storeAt_eq_ok :
    storeAt key i bs l = .ok out ↔ i + bs.length ≤ l.length ∧ out = splice l i bs := by
  rw [storeAt]
  split
  · next h => simp [h, eq_comm]
  · next h => simp [h]

theorem csumAt_eq_ok :
    csumAt key st flags diff i l = .ok out ↔
      i + 2 ≤ l.length ∧ out = updateCsum st flags diff i l := by
  rw [csumAt]
  split
  · next h => simp [h, eq_comm]
  · next h => simp [h]

theorem ok_ne_error {ε α : Type} {a : α} {i : ε} : (.ok a : Except ε α) ≠ .error i := nofun

theorem error_ne_error {ε α : Type} {i j : ε} (h : i ≠ j) : (.error i : Except ε α) ≠ .error j :=
  fun he => h (Except.error.inj he)

/-- A sequence does not stop where none of its parts does. -/
theorem bind_ne_error {ε α β : Type} {e : Except ε α} {f : α → Except ε β} {i : ε}
    (he : e ≠ .error i) (hf : ∀ a, f a ≠ .error i) : e >>= f ≠ .error i := by
  cases e with
  | ok a => exact hf a
  | error j => exact fun h => he (congrArg Except.error (Except.error.inj h))

theorem ite_ok_ne_error {ε α : Type} {c : Prop} [Decidable c] {i j : ε} {a : α} (h : i ≠ j) :
    (if c then .ok a else .error i : Except ε α) ≠ .error j := by
  split
  · exact ok_ne_error
  · exact error_ne_error h

theorem ite_error_eq_ok {ε α : Type} {c : Prop} [Decidable c] {i : ε} {e : Except ε α} {a : α} :
    (if c then .error i else e) = .ok a ↔ ¬ c ∧ e = .ok a := by
  by_cases h : c
  · simp [h]
  · simp [h]

/-! ## Values -/

theorem length_updateCsum (h : i + 2 ≤ l.length) :
    (updateCsum st flags diff i l).length = l.length :=
  length_splice h

/-- **An update moves the sum by the difference**, with the sign of the checksum state. -/
theorem cast_leSum_updateCsum (hi : i % 2 = 0) (h : i + 2 ≤ l.length)
    (hp : flags.pseudoHdr = true)
    (hz : ¬ (flags.markMangled0 ∧ ¬ flags.markEnforce ∧ load16 l i = 0)) :
    (leSum (updateCsum st flags diff i l) : ZMod 65535)
      = leSum l + st.sign * diff.toNat := by
  rw [updateCsum, cast_leSum_splice16 hi h, cast_l4CsumField hp hz]
  ring

/-- An update moves the field itself by the difference. -/
theorem cast_load16_updateCsum (h : i + 2 ≤ l.length) (hp : flags.pseudoHdr = true)
    (hz : ¬ (flags.markMangled0 ∧ ¬ flags.markEnforce ∧ load16 l i = 0)) :
    ((load16 (updateCsum st flags diff i l) i).toNat : ZMod 65535)
      = (load16 l i).toNat + st.sign * diff.toNat := by
  rw [updateCsum, load16_splice_self h, cast_l4CsumField hp hz]

/-- An update touches two bytes. -/
theorem updateCsum_sameExcept {P : ℕ → Prop} (h : i + 2 ≤ l.length)
    (hP : ∀ j, j = i ∨ j = i + 1 → P j) : SameExcept P l (updateCsum st flags diff i l) := by
  refine SameExcept.splice h fun j h₁ h₂ => hP j ?_
  rw [length_le16Bytes] at h₂
  omega

/-- The update of the checksum of a message leaves a new type in place. -/
theorem load8_updateCsum_type (h : 4 ≤ l.length) (b : UInt8) :
    load8 (updateCsum st flags diff 2 (splice l 0 [b])) 0 = b := by
  have hone : 0 + [b].length ≤ l.length :=
    singleton_fits _ (by omega)
  rw [updateCsum, load8_splice_of_disjoint (by rwa [length_splice hone]) (Or.inl (by decide)),
    load8_splice_head]

/-- And the code. -/
theorem load8_updateCsum_code (h : 4 ≤ l.length) (b : UInt8) :
    load8 (updateCsum st flags diff 2 (splice l 0 [b])) 1 = load8 l 1 := by
  have hone : 0 + [b].length ≤ l.length :=
    singleton_fits _ (by omega)
  rw [updateCsum, load8_splice_of_disjoint (by rwa [length_splice hone]) (Or.inl (by decide)),
    load8_splice_of_disjoint hone (Or.inr (by simp))]

theorem length_updateCsum_type (h : 4 ≤ l.length) (b : UInt8) :
    (updateCsum st flags diff 2 (splice l 0 [b])).length = l.length := by
  have hone : 0 + [b].length ≤ l.length :=
    singleton_fits _ (by omega)
  rw [length_updateCsum (by rwa [length_splice hone]), length_splice hone]

/-- **The update is made in what holds the field**, whatever follows. -/
theorem updateCsum_append (h : i + 2 ≤ l.length) (rest : List UInt8) :
    updateCsum st flags diff i (l ++ rest) = updateCsum st flags diff i l ++ rest := by
  rw [updateCsum, load16_append_left h, splice_append_left h]
  rfl

/-- The MAC header of a translated frame: the old addresses and the new EtherType. -/
theorem length_macHeader {data : List UInt8} (h : 12 ≤ data.length) (et : UInt16) :
    (data.take 12 ++ le16Bytes et).length = ethHlen := by
  rw [List.length_append, List.length_take, length_le16Bytes, Nat.min_eq_left h]

end CiliumClat
