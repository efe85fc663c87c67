import CiliumClat.Kernel.Skb

/-!
# A kernel

`Kernel.Lawful` and `Kernel.Reliable` are assumptions; this file shows that they can be met, and
gives concrete runs something to run on.  `Kernel.reference` keeps every packet linear, never
fails a call that is in range, and computes `bpf_csum_diff` as the kernel does: 32-bit words added
with end-around carry, complemented where they are subtracted, and the result folded to 16 bits.
-/

namespace CiliumClat

open ByteList OnesComplement

/-! ## `csum_partial` and `bpf_csum_diff` -/

/-- `csum_partial` over whole 32-bit words. -/
def csumPartial : List UInt8 → UInt32 → UInt32
  | b₀ :: b₁ :: b₂ :: b₃ :: l, sum => csumPartial l (csumAdd sum (le32 b₀ b₁ b₂ b₃))
  | _, sum => sum

/-- `bpf_csum_diff` before its result is folded: pushing data, pulling data, or both. -/
def csumDiffRaw : List UInt8 → List UInt8 → UInt32 → UInt32
  | [], new, seed => csumPartial new seed
  | old, [], seed => ~~~csumPartial old (~~~seed)
  | old, new, seed => csumAdd (csumPartial new seed) (~~~csumPartial old 0)

/-- `bpf_csum_diff`. -/
def csumDiffFolded (old new : List UInt8) (seed : UInt32) : UInt32 :=
  (fold16 (csumDiffRaw old new seed)).toUInt32

theorem cast_csumPartial : ∀ (l : List UInt8), l.length % 4 = 0 → ∀ sum : UInt32,
    ((csumPartial l sum).toNat : ZMod 65535) = sum.toNat + leSum l
  | [], _, sum => by
    rw [csumPartial, leSum, Nat.cast_zero, add_zero]
    simp
  | [_], h, _ => by simp at h
  | [_, _], h, _ => by simp at h
  | [_, _, _], h, _ => by simp at h
  | b₀ :: b₁ :: b₂ :: b₃ :: l, h, sum => by
    have hl : l.length % 4 = 0 := by
      simp only [List.length_cons] at h
      omega
    have hword := cast_leSum_le32Bytes (le32 b₀ b₁ b₂ b₃)
    rw [le32Bytes_le32, leSum, leSum, leSum] at hword
    rw [csumPartial, cast_csumPartial l hl, cast_csumAdd, ← hword, leSum, leSum]
    push_cast
    ring

theorem cast_csumDiffRaw {old new : List UInt8} (ho : old.length % 4 = 0)
    (hn : new.length % 4 = 0) (seed : UInt32) :
    ((csumDiffRaw old new seed).toNat : ZMod 65535) = seed.toNat + leSum new - leSum old := by
  match old, new with
  | [], new =>
    rw [csumDiffRaw, cast_csumPartial new hn, leSum, Nat.cast_zero, sub_zero]
  | a :: old, [] =>
    rw [csumDiffRaw, cast_not32, cast_csumPartial _ ho, cast_not32, leSum, Nat.cast_zero]
    · ring
    · exact List.cons_ne_nil a old
  | a :: old, b :: new =>
    rw [csumDiffRaw, cast_csumAdd, cast_not32, cast_csumPartial _ hn, cast_csumPartial _ ho,
      UInt32.toNat_zero, Nat.cast_zero]
    · ring
    · exact List.cons_ne_nil a old
    · exact List.cons_ne_nil b new

theorem cast_csumDiffFolded {old new : List UInt8} (ho : old.length % 4 = 0)
    (hn : new.length % 4 = 0) (seed : UInt32) :
    ((csumDiffFolded old new seed).toNat : ZMod 65535) = seed.toNat + leSum new - leSum old := by
  rw [csumDiffFolded, UInt16.toNat_toUInt32, cast_fold16, cast_csumDiffRaw ho hn]

/-- Words that are not all zero never add up to the zero word. -/
theorem csumPartial_ne_zero : ∀ (l : List UInt8), l.length % 4 = 0 → ∀ sum : UInt32,
    sum ≠ 0 ∨ 0 < leSum l → csumPartial l sum ≠ 0
  | [], _, sum, h => by
    rw [leSum] at h
    exact h.resolve_right (lt_irrefl 0)
  | [_], hl, _, _ => by simp at hl
  | [_, _], hl, _, _ => by simp at hl
  | [_, _, _], hl, _, _ => by simp at hl
  | b₀ :: b₁ :: b₂ :: b₃ :: l, hl, sum, h => by
    have hl' : l.length % 4 = 0 := by
      simp only [List.length_cons] at hl
      omega
    have hword : le32 b₀ b₁ b₂ b₃ = 0 → leSum [b₀, b₁, b₂, b₃] = 0 := by
      rw [← UInt32.toNat_inj, toNat_le32, UInt32.toNat_zero]
      simp only [leSum]
      omega
    rw [csumPartial]
    refine csumPartial_ne_zero l hl' _ ?_
    by_cases hzero : sum = 0 ∧ le32 b₀ b₁ b₂ b₃ = 0
    · refine Or.inr ?_
      have hfour := hword hzero.2
      have hpos := h.resolve_left (not_not.mpr hzero.1)
      rw [leSum, leSum, leSum] at hfour
      rw [leSum, leSum] at hpos
      omega
    · exact Or.inl fun hadd => hzero ((csumAdd_eq_zero_iff _ _).mp hadd)

/-! ## Linear buffers -/

/-- A buffer all of whose bytes are linear. -/
def Skb.linear (data : List UInt8) (protocol : UInt16) (ipSummed : IpSummed) (csum : UInt32) :
    Skb where
  data := data
  headlen := data.length
  protocol := protocol
  ipSummed := ipSummed
  csum := csum
  headlen_le := le_refl _
  mac_linear := min_le_right _ _

/-- `skb->csum` after `new` was added to the sum it stands for and `old` taken out. -/
def moveCsum (csum : UInt32) (new old : ℕ) : UInt32 :=
  UInt32.ofNat ((csum.toNat + new + 65534 * old) % 65535)

theorem cast_moveCsum (csum : UInt32) (new old : ℕ) :
    ((moveCsum csum new old).toNat : ZMod 65535) = csum.toNat + new - old := by
  have hlt : (csum.toNat + new + 65534 * old) % 65535 < 2 ^ 32 :=
    lt_trans (Nat.mod_lt _ (by decide)) (by decide)
  have hneg : (65534 : ZMod 65535) = -1 := by decide
  rw [moveCsum, UInt32.toNat_ofNat', Nat.mod_eq_of_lt hlt, ZMod.natCast_mod]
  push_cast
  rw [hneg]
  ring

/-! ## The reference kernel -/

/-- A kernel that fails no call that is in range. -/
def Kernel.reference : Kernel where
  skbPullData _ s len :=
    if len ≤ s.data.length then some (.linear s.data s.protocol s.ipSummed s.csum) else none
  skbLoadBytes _ s off len :=
    if off + len ≤ s.data.length then some (slice s.data off len) else none
  skbStoreBytes _ s off bs recompute :=
    if off + bs.length ≤ s.data.length then
      some (.linear (splice s.data off bs) s.protocol s.ipSummed
        (if recompute then
          moveCsum s.csum (256 ^ (off % 2) * leSum bs)
            (256 ^ (off % 2) * leSum (slice s.data off bs.length))
        else s.csum))
    else none
  skbChangeProto _ s proto :=
    if proto = bpfHtons ethPIpv6 then
      if s.protocol = bpfHtons ethPIp ∧ ethHlen + ip4Hlen ≤ s.data.length then
        some (.linear (widen s.data ethHlen (List.replicate (ip6Hlen - ip4Hlen) 0)) proto
          s.ipSummed s.csum)
      else none
    else if proto = bpfHtons ethPIp then
      if s.protocol = bpfHtons ethPIpv6 ∧ ethHlen + ip6Hlen ≤ s.data.length then
        some (.linear (cut s.data ethHlen (ip6Hlen - ip4Hlen)) proto s.ipSummed
          (moveCsum s.csum 0 (leSum (slice s.data ethHlen (ip6Hlen - ip4Hlen)))))
      else none
    else none
  skbAdjustRoom _ s lenDiff mode _ :=
    match mode, s.netBaseLen, lenDiff with
    | .net, some base, .ofNat d =>
      if ethHlen + base ≤ s.data.length then
        some (.linear (widen s.data (ethHlen + base) (List.replicate d 0)) s.protocol s.ipSummed
          s.csum)
      else none
    | .net, some base, .negSucc d =>
      if ethHlen + base + (d + 1) ≤ s.data.length then
        some (.linear (cut s.data (ethHlen + base) (d + 1)) s.protocol s.ipSummed
          (moveCsum s.csum 0 (leSum (slice s.data (ethHlen + base) (d + 1)))))
      else none
    | _, _, _ => none
  l4CsumReplace _ s off _ diff flags :=
    if off + 2 ≤ s.data.length then
      some (.linear (splice s.data off
          (le16Bytes (l4CsumField s.ipSummed flags (load16 s.data off) diff)))
        s.protocol s.ipSummed (moveCsum s.csum 0 diff.toNat))
    else none
  csumDiff := csumDiffFolded

namespace Kernel

theorem reference_shrinkRoom {n : ℕ} {s s' : Skb} {d : ℕ} {flags : RoomFlags} (hd : 0 < d)
    (h : reference.skbAdjustRoom n s (-(d : ℤ)) .net flags = some s') :
    s'.protocol = s.protocol ∧ ∃ base, s.netBaseLen = some base ∧
      RemoveEffect s (ethHlen + base) d s' := by
  obtain ⟨e, rfl⟩ := Nat.exists_eq_succ_of_ne_zero hd.ne'
  have hneg : (-((e.succ : ℕ) : ℤ)) = Int.negSucc e := rfl
  rw [hneg] at h
  cases hbase : s.netBaseLen with
  | none =>
    simp only [reference, hbase] at h
    exact nomatch h
  | some base =>
    simp only [reference, hbase] at h
    split at h
    · next hin =>
      cases Option.some.inj h
      refine ⟨rfl, base, rfl, hin, rfl, rfl, fun _ => ?_⟩
      exact (cast_moveCsum _ _ _).trans (by rw [Nat.cast_zero, add_zero])
    · exact nomatch h

theorem reference_growRoom {n : ℕ} {s s' : Skb} {d : ℕ} {flags : RoomFlags}
    (h : reference.skbAdjustRoom n s (d : ℤ) .net flags = some s') :
    s'.protocol = s.protocol ∧ ∃ base, s.netBaseLen = some base ∧
      InsertEffect s (ethHlen + base) d s' := by
  cases hbase : s.netBaseLen with
  | none =>
    simp only [reference, hbase] at h
    exact nomatch h
  | some base =>
    simp only [reference, hbase] at h
    split at h
    · next hin =>
      cases Option.some.inj h
      exact ⟨rfl, base, rfl, hin, ⟨_, List.length_replicate, rfl⟩, rfl⟩
    · exact nomatch h

/-- The assumptions on the effect of the helpers can be met. -/
theorem reference_lawful : reference.Lawful where
  pullData := by
    intro n s len s' h
    obtain ⟨-, h⟩ := Option.ite_none_right_eq_some.mp h
    cases Option.some.inj h
    exact ⟨rfl, rfl, rfl, rfl⟩
  loadBytes := by
    intro n s off len bs h
    obtain ⟨hin, h⟩ := Option.ite_none_right_eq_some.mp h
    exact ⟨hin, (Option.some.inj h).symm⟩
  storeBytes := by
    intro n s off bs recompute s' h
    obtain ⟨hin, h⟩ := Option.ite_none_right_eq_some.mp h
    cases Option.some.inj h
    refine ⟨hin, rfl, rfl, rfl, fun _ => ?_⟩
    cases recompute with
    | true =>
      rw [if_pos rfl, if_pos rfl]
      refine (cast_moveCsum _ _ _).trans ?_
      push_cast
      ring
    | false =>
      rw [if_neg Bool.false_ne_true, if_neg Bool.false_ne_true, add_zero]
      rfl
  changeProto6 := by
    intro n s s' h
    obtain ⟨⟨hp, hin⟩, h⟩ := Option.ite_none_right_eq_some.mp h
    cases Option.some.inj h
    exact ⟨hp, rfl, le_trans (by decide) hin, ⟨_, List.length_replicate, rfl⟩, rfl⟩
  changeProto4 := by
    intro n s s' h
    obtain ⟨⟨hp, hin⟩, h⟩ := Option.ite_none_right_eq_some.mp h
    cases Option.some.inj h
    refine ⟨hp, rfl, le_trans (by decide) hin, rfl, rfl, fun _ => ?_⟩
    exact (cast_moveCsum _ _ _).trans (by rw [Nat.cast_zero, add_zero])
  shrinkRoom := fun hd _ h => reference_shrinkRoom hd h
  growRoom := fun _ _ h => reference_growRoom h
  l4CsumReplace := by
    intro n s off diff flags s' h
    obtain ⟨hin, h⟩ := Option.ite_none_right_eq_some.mp h
    cases Option.some.inj h
    refine ⟨hin, rfl, rfl, rfl, fun _ _ _ => ?_⟩
    exact (cast_moveCsum _ _ _).trans (by rw [Nat.cast_zero, add_zero])
  csumDiff := fun _ _ seed ho hn => cast_csumDiffFolded ho hn seed

/-- The assumptions on when the helpers succeed can be met. -/
theorem reference_reliable : reference.Reliable where
  pullData := by
    intro n s len h
    exact ⟨_, if_pos h, h⟩
  loadBytes := by
    intro n s off len h
    exact Option.isSome_iff_exists.mpr ⟨_, if_pos h⟩
  storeBytes := by
    intro n s off bs recompute h
    exact Option.isSome_iff_exists.mpr ⟨_, if_pos h⟩
  changeProto6 := by
    intro n s hp h
    exact Option.isSome_iff_exists.mpr ⟨_, if_pos ⟨hp, h⟩⟩
  changeProto4 := by
    intro n s hp h
    exact Option.isSome_iff_exists.mpr ⟨_, if_pos ⟨hp, h⟩⟩
  shrinkRoom := by
    intro n s d flags base hbase h
    cases d with
    | zero =>
      simp only [reference, hbase]
      exact Option.isSome_iff_exists.mpr ⟨_, if_pos h⟩
    | succ d =>
      have hneg : (-((d + 1 : ℕ) : ℤ)) = Int.negSucc d := rfl
      simp only [reference, hbase, hneg]
      exact Option.isSome_iff_exists.mpr ⟨_, if_pos h⟩
  growRoom := by
    intro n s d flags base hbase h
    simp only [reference, hbase]
    exact Option.isSome_iff_exists.mpr ⟨_, if_pos h⟩
  l4CsumReplace := by
    intro n s off diff flags h _ _
    exact Option.isSome_iff_exists.mpr ⟨_, if_pos h⟩

end Kernel

end CiliumClat
