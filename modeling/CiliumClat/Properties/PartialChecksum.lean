import CiliumClat.Properties.ZeroChecksum

/-!
# Checksums that the device completes

A packet that leaves the pod through a veth pair is usually `CHECKSUM_PARTIAL`: the checksum field
holds the sum of the pseudo-header, and the rest is added later.  The program sees only the field,
which looks like any other checksum.  It takes the same difference and the same helper call for
both; the helper knows which of the two it is and adds the difference with the right sign.

The field of such a packet is never null, because the sum is folded with end-around carry and its
words are not all zero.  So UDP takes the branch for datagrams that have a checksum.  That
`udp_full_csum` has no part in such a run is said by putting another function in its place:
`clatEgressWith full` is the program with `full` for `udp_full_csum`, and the run is the same
whatever `full` is.

The last section puts the device into the picture (`completed`): translating before it is done and
after it is done comes to the same, in both directions.
-/

namespace CiliumClat

open ByteList OnesComplement EarlyExit

variable {k : Kernel} {c : Constants} {s : State}

/-! ## Another function for `udp_full_csum` -/

/-- A function in the place of `udp_full_csum`: it gets the offset and the length of the datagram
and the pseudo-header sum. -/
abbrev FullCsum : Type := ℕ → ℕ → UInt32 → Clat (Option UInt16)

/-- `case IPPROTO_UDP` with `full` in the place of `udp_full_csum`. -/
def egressUdpWith (full : FullCsum) (k : Kernel) (c : Constants) (v : EgressVars) : Clat Unit := do
  match ← bpfSkbLoadBytes k (v.l4off + 6) 2 with
  | none => drop .egressDropTruncated
  | some check =>
    if load16 check 0 ≠ 0 then
      orDrop (bpfL4CsumReplace k (v.l4off + 6) 0 (egressDiff k c v) pseudoHdrMangled0)
        .egressDropHelper
    else if csumFold (k.csumDiff [] (egressPseudo4 v) 0) = 0 then
      orDrop (bpfL4CsumReplace k (v.l4off + 6) 0 (egressDiff k c v) pseudoHdrEnforce)
        .egressDropHelper
    else if v.isFrag then
      drop .egressDropFragNoCsum
    else
      let seed := k.csumDiff [] (egressPseudo6 c v ipprotoUdp).bytes 0
      match ← full v.l4off v.l4len seed with
      | none => drop .egressDropTooBig
      | some csum =>
        orDrop (bpfSkbStoreBytes k (v.l4off + 6) (le16Bytes csum) storeFlags) .egressDropHelper

/-- The transport header with `full` in the place of `udp_full_csum`. -/
def egressL4With (full : FullCsum) (k : Kernel) (c : Constants) (v : EgressVars) : Clat Unit :=
  if v.proto = ipprotoUdp then egressUdpWith full k c v else egressL4 k c v

/-- `clat_egress` with `full` in the place of `udp_full_csum`. -/
def clatEgressWith (full : FullCsum) (k : Kernel) (c : Constants) (s : State) : TcAct × State :=
  runProg (do
    egressMatch
    egressFront k c >>= fun v => if v.first then egressL4With full k c v else pure ()
    count .egressTranslated
    return .ok) s

/-- With `udp_full_csum` in its own place it is `clat_egress`. -/
theorem clatEgressWith_udpFullCsum (k : Kernel) (c : Constants) (s : State) :
    clatEgressWith (udpFullCsum k) k c s = clatEgress k c s := by
  have hl4 : egressL4With (udpFullCsum k) k c = egressL4 k c := by
    funext v
    rw [egressL4With]
    split
    · next hudp =>
      rw [egressL4, hudp, if_neg (by decide), if_pos rfl]
      rfl
    · rfl
  rw [clatEgress, clatEgressProg, egressTranslate_eq_front, clatEgressWith, hl4]

/-- UDP with a checksum: what stands for `udp_full_csum` does not matter. -/
theorem exec_egressUdpWith (hk : k.Lawful) (full full' : FullCsum) {v : EgressVars}
    (hnz : load16 s.skb.data (v.l4off + 6) ≠ 0) :
    exec (egressUdpWith full k c v) s = exec (egressUdpWith full' k c v) s := by
  refine exec_bind_congr fun check s' hload => ?_
  rw [exec_bpfSkbLoadBytes] at hload
  obtain ⟨hcheck, -⟩ := Prod.mk.inj hload
  cases Except.ok.inj hcheck
  cases hf : k.skbLoadBytes s.calls s.skb (v.l4off + 6) 2 with
  | none => rfl
  | some bs =>
    obtain ⟨-, rfl⟩ := hk.loadBytes hf
    have hread : load16 (slice s.skb.data (v.l4off + 6) 2) 0 ≠ 0 := by
      rwa [load16_slice (by decide)]
    dsimp only
    rw [if_pos hread, if_pos hread]

/-- What the reshape leaves, in the words of the frame. -/
theorem egressFrontParts_eq_ok {data : List UInt8} {x : EgressVars × List UInt8}
    (h : egressFrontParts c data = .ok x) :
    x = (egressVars (Iphdr.load data ethHlen), transportBytes4 data) := by
  rw [egressFrontParts] at h
  split at h
  swap
  · cases h
  obtain ⟨v, hv, h⟩ := bind_eq_ok.mp h
  obtain ⟨l4, hl4, h⟩ := bind_eq_ok.mp h
  obtain ⟨hacc, rfl⟩ := egressHeader_eq_ok.mp hv
  obtain ⟨-, -, rfl⟩ := stripOptions_eq_ok.mp hl4
  cases h
  have hihl := hacc.ihl
  rw [List.drop_drop, Nat.add_assoc, Nat.add_sub_cancel' hihl, egressVars_ihl]
  rfl

/-- **A packet that has a checksum is not summed**: whatever stands for `udp_full_csum`, the run is
that of `clat_egress`. -/
theorem clatEgressWith_of_hasChecksum (hk : k.Lawful) (c : Constants)
    (hkind : HasChecksum (Iphdr.load s.skb.data ethHlen).protocol (transportBytes4 s.skb.data))
    (full : FullCsum) : clatEgressWith full k c s = clatEgress k c s := by
  -- the two programs differ in the transport header only
  have hrun : exec (egressFront k c >>= fun v =>
      if v.first then egressL4With full k c v else pure ()) s =
      exec (egressFront k c >>= fun v =>
        if v.first then egressL4With (udpFullCsum k) k c v else pure ()) s := by
    refine exec_bind_congr fun v s' hfront => ?_
    have hat := refines_egressFront c hk (False.elim : False → _) rfl not_false
      (at_startRun s Counter.isEgressDrop) False.elim
    rw [Refines, hfront] at hat
    obtain ⟨x, hx, rfl, hlen, hs'⟩ := hat
    obtain rfl := egressFrontParts_eq_ok hx
    split
    swap
    · rfl
    rw [egressL4With, egressL4With]
    split
    swap
    · rfl
    next hudp =>
    refine exec_egressUdpWith hk full (udpFullCsum k) ?_
    rw [hs'.data, load16_append_add (length_egressHeaders hlen)]
    refine (hkind.resolve_left fun htcp => ?_).2
    exact absurd (htcp.symm.trans hudp) (by decide)
  rw [← clatEgressWith_udpFullCsum, clatEgressWith, clatEgressWith, runProg, runProg]
  have hprog : ∀ {p p' : Clat Unit} {q : Clat TcAct}, exec p s = exec p' s →
      exec (egressMatch >>= fun _ => p >>= fun _ => q) s =
        exec (egressMatch >>= fun _ => p' >>= fun _ => q) s := by
    intro p p' q hp
    refine exec_bind_congr fun _ s' hmatch => ?_
    rw [exec_egressMatch] at hmatch
    split at hmatch
    · cases hmatch
      rw [exec_bind, exec_bind, hp]
    · cases hmatch
  rw [hprog hrun]

/-! ## Partial checksums -/

/-- The checksum field of the frame holds the sum of its IPv4 pseudo-header, folded to sixteen bits
with end-around carry: it is congruent to the sum, and not null. -/
def HoldsPseudoSum4 (data : List UInt8) : Prop :=
  load16 (transportBytes4 data) (csumOffset (Iphdr.load data ethHlen).protocol) ≠ 0 ∧
    (bpfNtohs (load16 (transportBytes4 data)
        (csumOffset (Iphdr.load data ethHlen).protocol))).toNat ≡
      sum16 (pseudo4 (Iphdr.load data ethHlen) (transportBytes4 data).length) [MOD 65535]

instance (data : List UInt8) : Decidable (HoldsPseudoSum4 data) :=
  inferInstanceAs (Decidable (_ ∧ _))

/-- A field holds a sum in network order if it does in memory order. -/
theorem ntohs_modEq_sum16_iff (w : UInt16) (l : List UInt8) :
    (bpfNtohs w).toNat ≡ sum16 l [MOD 65535] ↔ (w.toNat : ZMod 65535) = leSum l := by
  rw [← ZMod.natCast_eq_natCast_iff, bpfNtohs, cast_bswap16, cast_sum16, isUnit_256.mul_right_inj]

/-- **Partial checksums.**  If the checksum field of an unfragmented TCP or UDP packet holds the sum
of its IPv4 pseudo-header and the packet is translated, then the field holds the sum of the IPv6
pseudo-header, and `udp_full_csum` has had no part in it. -/
theorem partial_checksum_kept (hk : k.Lawful) (h : EgressTranslates k c s)
    (hst : s.skb.ipSummed = .checksumPartial) (hlen : LengthConsistent4 s.skb.data)
    (hfrag : ¬ (Iphdr.load s.skb.data ethHlen).IsFragment)
    (hproto : (Iphdr.load s.skb.data ethHlen).protocol = ipprotoTcp ∨
      (Iphdr.load s.skb.data ethHlen).protocol = ipprotoUdp)
    (hfield : HoldsPseudoSum4 s.skb.data) :
    (bpfNtohs (load16 (transportBytes6 (clatEgress k c s).2.skb.data)
        (csumOffset (Iphdr.load s.skb.data ethHlen).protocol))).toNat ≡
      sum16 (pseudo6 (Ipv6hdr.load (clatEgress k c s).2.skb.data ethHlen)
        (transportBytes6 (clatEgress k c s).2.skb.data).length) [MOD 65535] ∧
    ∀ full, clatEgressWith full k c s = clatEgress k c s := by
  have hkind : HasChecksum (Iphdr.load s.skb.data ethHlen).protocol
      (transportBytes4 s.skb.data) := by
    refine hproto.imp_right fun hudp => ⟨hudp, ?_⟩
    have hne := hfield.1
    rw [hudp] at hne
    exact hne
  refine ⟨?_, clatEgressWith_of_hasChecksum hk c hkind⟩
  obtain ⟨-, hload, l4, hl4, hdrop⟩ := h.parts hk
  have hoff : (Iphdr.load s.skb.data ethHlen).offset = 0 :=
    not_not.mp fun hoff => hfrag (Or.inr hoff)
  have hisFrag := egressVars_isFrag.not.mpr hfrag
  rw [EgressVars.fragBytes, if_neg hisFrag, List.nil_append] at hdrop
  obtain ⟨hin, rfl⟩ := (egressPayload_checksum hoff hkind).mp hl4
  have hnh : ((egressVars (Iphdr.load s.skb.data ethHlen)).h6 c).nexthdr =
      (Iphdr.load s.skb.data ethHlen).protocol :=
    (if_neg hisFrag).trans (if_neg hkind.ne_icmp.1)
  have hlt : (transportBytes4 s.skb.data).length < 65536 := by
    rw [hlen.length_transportBytes4]
    exact lt_of_le_of_lt (Nat.sub_le _ _) (UInt16.toNat_lt _)
  have hsaddr : (egressVars (Iphdr.load s.skb.data ethHlen)).saddr =
      (Iphdr.load s.skb.data ethHlen).saddr := rfl
  have hdaddr : (egressVars (Iphdr.load s.skb.data ethHlen)).daddr =
      (Iphdr.load s.skb.data ethHlen).daddr := rfl
  have hsum := (ntohs_modEq_sum16_iff _ _).mp hfield.2
  have hsign : IpSummed.sign .checksumPartial = 1 := rfl
  -- the addresses are all that changes between the two pseudo-headers
  rw [ntohs_modEq_sum16_iff, hload, transportBytes6, hdrop, length_updateTransport hin,
    cast_load16_updateTransport hkind hin, hsum, hst, hsign, cast_egressDiff hk,
    cast_leSum_pseudo6 _ hlt, cast_leSum_pseudo4, hnh, hsaddr, hdaddr]
  ring

/-- A UDP datagram to the peer of the packet tests as it leaves a socket: the checksum field holds
the pseudo-header sum. -/
def testPartialState : State where
  skb := .linear (testFrame4 0 17 [0, 53, 0, 53, 0, 8, 0xea, 0x59]) (bpfHtons ethPIp)
    .checksumPartial 0
  counters := fun _ => 0
  calls := 0

/-- Its field is updated, without a look at the rest of the datagram. -/
theorem partial_checksum_kept_datagram :
    HoldsPseudoSum4 testPartialState.skb.data ∧
      ∀ full, clatEgressWith full .reference testConstants testPartialState =
        clatEgress .reference testConstants testPartialState := by
  have hfield : HoldsPseudoSum4 testPartialState.skb.data := by decide +kernel
  have htr : EgressTranslates .reference testConstants testPartialState := by decide +kernel
  exact ⟨hfield, (partial_checksum_kept Kernel.reference_lawful htr rfl (by decide +kernel)
    (by decide +kernel) (Or.inr (by decide +kernel)) hfield).2⟩

/-! ## What the device completes -/

/-- What the device makes of the transport bytes of such a packet: it sums them all, the field with
them, and writes the checksum over the field. -/
def completed (protocol : UInt8) (l4 : List UInt8) : List UInt8 :=
  splice l4 (csumOffset protocol) (le16Bytes (sentChecksum (internetChecksum 0 l4)))

/-- The residual of an IPv4 frame after the device. -/
def completedResidual4 (data : List UInt8) : ℕ :=
  sum16 (pseudo4 (Iphdr.load data ethHlen) (transportBytes4 data).length) +
    sum16 (completed (Iphdr.load data ethHlen).protocol (transportBytes4 data))

/-- The residual of an IPv6 frame without extension headers after the device. -/
def completedResidual6 (data : List UInt8) : ℕ :=
  sum16 (pseudo6 (Ipv6hdr.load data ethHlen) (transportBytes6 data).length) +
    sum16 (completed (Ipv6hdr.load data ethHlen).nexthdr (transportBytes6 data))

section Completed

variable {protocol : UInt8} {l4 : List UInt8}

/-- All that remains of the bytes is the field, with its sign turned. -/
theorem cast_leSum_completed (h : HasChecksum protocol l4)
    (hlen : csumOffset protocol + 2 ≤ l4.length) :
    (leSum (completed protocol l4) : ZMod 65535) = -(load16 l4 (csumOffset protocol)).toNat := by
  rw [completed, cast_leSum_splice16 h.csumOffset_even hlen, cast_sentChecksum,
    cast_internetChecksum, UInt32.toNat_zero]
  push_cast
  ring

/-- After an update by the difference `d`, the residual has changed by `d` less. -/
theorem cast_leSum_completed_update (h : HasChecksum protocol l4)
    (hlen : csumOffset protocol + 2 ≤ l4.length) (d : UInt32) :
    (leSum (completed protocol (updateTransport .checksumPartial protocol d l4)) : ZMod 65535) =
      leSum (completed protocol l4) - d.toNat := by
  have hlen' : csumOffset protocol + 2 ≤
      (updateTransport .checksumPartial protocol d l4).length := by
    rwa [length_updateTransport hlen]
  have hsign : IpSummed.sign .checksumPartial = 1 := rfl
  rw [cast_leSum_completed (h.update hlen _ _) hlen', cast_leSum_completed h hlen,
    cast_load16_updateTransport h hlen, hsign]
  ring

end Completed

/-- Egress, before the device. -/
theorem egress_completedResidual (hk : k.Lawful) (h : EgressTranslates k c s)
    (hst : s.skb.ipSummed = .checksumPartial) (hlen : LengthConsistent4 s.skb.data)
    (hfrag : ¬ (Iphdr.load s.skb.data ethHlen).IsFragment)
    (hkind : HasChecksum (Iphdr.load s.skb.data ethHlen).protocol (transportBytes4 s.skb.data)) :
    (completedResidual6 (clatEgress k c s).2.skb.data : ZMod 65535) =
      completedResidual4 s.skb.data := by
  obtain ⟨-, hload, l4, hl4, hdrop⟩ := h.parts hk
  have hoff : (Iphdr.load s.skb.data ethHlen).offset = 0 :=
    not_not.mp fun hoff => hfrag (Or.inr hoff)
  have hisFrag := egressVars_isFrag.not.mpr hfrag
  rw [EgressVars.fragBytes, if_neg hisFrag, List.nil_append] at hdrop
  obtain ⟨hin, rfl⟩ := (egressPayload_checksum hoff hkind).mp hl4
  have hnh : ((egressVars (Iphdr.load s.skb.data ethHlen)).h6 c).nexthdr =
      (Iphdr.load s.skb.data ethHlen).protocol :=
    (if_neg hisFrag).trans (if_neg hkind.ne_icmp.1)
  have hlt : (transportBytes4 s.skb.data).length < 65536 := by
    rw [hlen.length_transportBytes4]
    exact lt_of_le_of_lt (Nat.sub_le _ _) (UInt16.toNat_lt _)
  have hsaddr : (egressVars (Iphdr.load s.skb.data ethHlen)).saddr =
      (Iphdr.load s.skb.data ethHlen).saddr := rfl
  have hdaddr : (egressVars (Iphdr.load s.skb.data ethHlen)).daddr =
      (Iphdr.load s.skb.data ethHlen).daddr := rfl
  rw [completedResidual6, completedResidual4, hload, hnh, transportBytes6, hdrop,
    length_updateTransport hin, hst, Nat.cast_add, Nat.cast_add, cast_sum16, cast_sum16, cast_sum16,
    cast_sum16, cast_leSum_completed_update hkind hin, cast_egressDiff hk,
    cast_leSum_pseudo6 _ hlt, cast_leSum_pseudo4, hnh, hsaddr, hdaddr]
  ring

/-- Ingress, before the device. -/
theorem ingress_completedResidual (hk : k.Lawful) (h : IngressTranslates k c s)
    (hst : s.skb.ipSummed = .checksumPartial) (hlen : LengthConsistent6 s.skb.data)
    (hkind : HasChecksum (Ipv6hdr.load s.skb.data ethHlen).nexthdr
      (transportBytes6 s.skb.data)) :
    (completedResidual4 (clatIngress k c s).2.skb.data : ZMod 65535) =
      completedResidual6 s.skb.data := by
  obtain ⟨hmac, -, v, x, present, hv, hx, hdata⟩ := h.parts hk
  have hfrag : (Ipv6hdr.load s.skb.data ethHlen).nexthdr ≠ ipprotoFragment := by
    rcases hkind with htcp | ⟨hudp, -⟩
    · rw [htcp]
      decide
    · rw [hudp]
      decide
  have hnh : v.nh = (Ipv6hdr.load s.skb.data ethHlen).nexthdr := by
    rw [hv.nh, transport6, if_neg hfrag]
  have hl4 : v.l4 s.skb.data = transportBytes6 s.skb.data := hv.l4_of_plain hfrag
  have hlt : (transportBytes6 s.skb.data).length < 65536 := by
    rw [← hl4, hv.l4, hlen.length_payload6]
    exact l4Length6_lt _
  have hkind' : HasChecksum v.nh (transportBytes6 s.skb.data) := by
    rw [hnh]
    exact hkind
  rw [hl4] at hx
  obtain ⟨hin, rfl⟩ := (ingressPayload_checksum (hv.first.mpr (if_neg hfrag)) hkind').mp hx
  have hload : Iphdr.load (clatIngress k c s).2.skb.data ethHlen = v.h4 k c v.totLen := by
    rw [hdata]
    exact iphdr_load_ingressHeaders k c v _ _ hmac
  have hbytes : transportBytes4 (clatIngress k c s).2.skb.data =
      updateTransport s.skb.ipSummed v.nh (ingressDiff k c v) (transportBytes6 s.skb.data) := by
    rw [transportBytes4, hload, hdata]
    exact List.drop_left' (length_ingressHeaders hmac)
  have hproto : (v.h4 k c v.totLen).protocol = v.nh := if_neg hkind'.ne_icmp.2
  rw [completedResidual4, completedResidual6, hload, hproto, hbytes, length_updateTransport hin,
    hst, Nat.cast_add, Nat.cast_add, cast_sum16, cast_sum16, cast_sum16, cast_sum16,
    cast_leSum_completed_update hkind' hin, cast_ingressDiff hk c v v.totLen,
    cast_leSum_pseudo6 _ hlt, cast_leSum_pseudo4, hproto, hv.saddr6, hv.daddr6, hnh]
  ring

/-- **Offloaded checksums.**  A packet whose checksum is left to the device may be translated before
the device completes it: whatever its checksum field holds, modulo `65535` the residual of the
packet that the device sends is the residual of the packet that it would have sent without the
translation, in both directions.  So one verifies exactly when the other does. -/
theorem offloaded_checksum_preserved (hk : k.Lawful) (hst : s.skb.ipSummed = .checksumPartial) :
    (EgressTranslates k c s → LengthConsistent4 s.skb.data →
      ¬ (Iphdr.load s.skb.data ethHlen).IsFragment →
      HasChecksum (Iphdr.load s.skb.data ethHlen).protocol (transportBytes4 s.skb.data) →
      completedResidual6 (clatEgress k c s).2.skb.data ≡
        completedResidual4 s.skb.data [MOD 65535]) ∧
    (IngressTranslates k c s → LengthConsistent6 s.skb.data →
      HasChecksum (Ipv6hdr.load s.skb.data ethHlen).nexthdr (transportBytes6 s.skb.data) →
      completedResidual4 (clatIngress k c s).2.skb.data ≡
        completedResidual6 s.skb.data [MOD 65535]) := by
  constructor
  · intro htr hlen hfrag hkind
    rw [← ZMod.natCast_eq_natCast_iff]
    exact egress_completedResidual hk htr hst hlen hfrag hkind
  · intro htr hlen hkind
    rw [← ZMod.natCast_eq_natCast_iff]
    exact ingress_completedResidual hk htr hst hlen hkind

/-- The datagram of the test out, with the sum of its pseudo-header in the field: it verifies when
the device is done with it.  Another one in. -/
theorem offloaded_checksum_preserved_datagram :
    completedResidual6 (clatEgress .reference testConstants testPartialState).2.skb.data ≡ 0
        [MOD 65535] ∧
      let s : State := ⟨.linear (testFrame6 17 testPeer6 [0, 53, 0, 53, 0, 8, 0x12, 0x34])
        (bpfHtons ethPIpv6) .checksumPartial 0, fun _ => 0, 0⟩
      completedResidual4 (clatIngress .reference testConstants s).2.skb.data ≡
        completedResidual6 s.skb.data [MOD 65535] := by
  have htr : EgressTranslates .reference testConstants testPartialState := by decide +kernel
  have hout := (offloaded_checksum_preserved Kernel.reference_lawful rfl).1 htr (by decide +kernel)
    (by decide +kernel) (by decide +kernel)
  refine ⟨hout.trans (by decide +kernel), ?_⟩
  intro s
  have htr' : IngressTranslates .reference testConstants s := by decide +kernel
  exact (offloaded_checksum_preserved Kernel.reference_lawful rfl).2 htr' (by decide +kernel)
    (by decide +kernel)

end CiliumClat
