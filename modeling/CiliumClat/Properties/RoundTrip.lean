import CiliumClat.Properties.Checksums

/-!
# There and back

A reply to a packet of the pod is modelled by the translated packet with its IPv6 addresses
exchanged.  `clat_ingress` has to make of it the packet that was sent, with the IPv4 addresses
exchanged: two programs that are written independently, with different orders of reshaping, have
to agree on every field, every offset and both updates of the checksum.

* `SameFields` says that an IPv4 header agrees with the one that was sent in every field but the
  addresses; `sameFields_rebuilt` proves it of any header rebuilt from the IPv6 header of egress.
* The checksum comes back to its old value modulo `65535`, because the difference ingress adds is
  the negative of the difference egress added (`cast_ingressDiff_return`).
-/

namespace CiliumClat

open ByteList OnesComplement

variable {k : Kernel} {c : Constants} {s : State}

/-! ## The header comes back -/

/-- The header `h` is the header `p` again, addresses and checksum apart: fragments keep their
identification, whole packets leave with DF set and identification zero. -/
structure SameFields (p h : Iphdr) : Prop where
  version : h.version = 4
  ihl : h.ihl = 5
  tos : h.tos = p.tos
  length : h.length = p.length
  ttl : h.ttl = p.ttl
  protocol : h.protocol = p.protocol
  offset : h.offset = p.offset
  more : h.more = p.more
  ident : h.ident = if p.IsFragment then p.ident else 0
  dontFragment : h.dontFragment = !decide p.IsFragment

/-- The IPv4 identification and flags that ingress makes of the headers of egress. -/
def returnId (v : EgressVars) : UInt16 :=
  if v.isFrag then (bpfNtohl v.fh.identification).toUInt16 else 0

def returnFrag4 (v : EgressVars) : UInt16 :=
  if v.isFrag then frag4Of (bpfNtohs v.fh.fragOff) else ipDf

section Rebuilt

variable {p h : Iphdr}

theorem returnFrag4_offset (p : Iphdr) :
    (returnFrag4 (egressVars p)).toNat % 8192 = p.offset := by
  rw [returnFrag4]
  by_cases hfrag : p.IsFragment
  · rw [if_pos (egressVars_isFrag.mpr hfrag), frag4Of_offset]
    exact fh_offset
  · rw [if_neg (egressVars_isFrag.not.mpr hfrag)]
    exact (not_not.mp fun hoff => hfrag (Or.inr hoff)).symm

theorem returnFrag4_more (p : Iphdr) :
    (returnFrag4 (egressVars p)).toNat.testBit 13 = p.more := by
  rw [returnFrag4]
  by_cases hfrag : p.IsFragment
  · rw [if_pos (egressVars_isFrag.mpr hfrag), frag4Of_more]
    exact fh_more
  · rw [if_neg (egressVars_isFrag.not.mpr hfrag)]
    exact (Bool.eq_false_iff.mpr fun hmore => hfrag (Or.inl hmore)).symm

theorem returnFrag4_dontFragment (p : Iphdr) :
    (returnFrag4 (egressVars p)).toNat.testBit 14 = !decide p.IsFragment := by
  rw [returnFrag4]
  by_cases hfrag : p.IsFragment
  · rw [if_pos (egressVars_isFrag.mpr hfrag), frag4Of_dontFragment, decide_eq_true hfrag]
    rfl
  · rw [if_neg (egressVars_isFrag.not.mpr hfrag), decide_eq_false hfrag]
    rfl

theorem toNat_returnId (p : Iphdr) :
    (returnId (egressVars p)).toNat = if p.IsFragment then p.ident else 0 := by
  have hlt : p.ident < 65536 := (bpfNtohs p.id).toNat_lt
  rw [returnId]
  by_cases hfrag : p.IsFragment
  · have hident : (bpfNtohl (egressVars p).fh.identification).toNat = p.ident := fh_ident
    rw [if_pos (egressVars_isFrag.mpr hfrag), if_pos hfrag, UInt32.toNat_toUInt16, hident]
    exact Nat.mod_eq_of_lt hlt
  · rw [if_neg (egressVars_isFrag.not.mpr hfrag), if_neg hfrag]
    rfl

/-- The payload of an accepted packet without options, in the total length. -/
theorem l4len_add (hacc : HeaderAccepted c p) (hopt : p.headerLength = ip4Hlen) :
    (egressVars p).l4len + ip4Hlen = p.length := by
  have hle := hacc.totLen
  rw [egressVars_ihl, hopt] at hle
  have hle' : ip4Hlen ≤ p.length := hle
  rw [egressVars_l4len, hopt, Nat.sub_add_cancel hle']

/-- **A header rebuilt from the headers of egress** has the fields of the header that was sent. -/
theorem sameFields_rebuilt (hacc : HeaderAccepted c p) (hopt : p.headerLength = ip4Hlen)
    (hproto : p.protocol ≠ ipprotoIcmpv6) (hversion : h.version = 4) (hihl : h.ihl = 5)
    (htos : h.tos = (bpfNtohl ((egressVars p).h6 c).vtcFlow >>> (20 : UInt32)).toUInt8)
    (hlen : h.totLen = bpfHtons (UInt16.ofNat ((egressVars p).l4len + ip4Hlen)))
    (hid : h.id = bpfHtons (returnId (egressVars p)))
    (hfrag : h.fragOff = bpfHtons (returnFrag4 (egressVars p))) (httl : h.ttl = p.ttl)
    (hprotocol : h.protocol =
      if (egressVars p).nh6 = ipprotoIcmpv6 then ipprotoIcmp else (egressVars p).nh6) :
    SameFields p h where
  version := hversion
  ihl := hihl
  tos := by
    rw [htos, ← UInt8.toNat_inj, toNat_trafficClass, h6_trafficClass]
    rfl
  length := by
    have hlt : p.length < 65536 := (bpfNtohs p.totLen).toNat_lt
    rw [Iphdr.length, hlen, l4len_add hacc hopt]
    show (bswap16 (bswap16 _)).toNat = _
    rw [bswap16_bswap16, UInt16.toNat_ofNat']
    exact Nat.mod_eq_of_lt hlt
  ttl := httl
  protocol := by
    have hnh6 : (egressVars p).nh6 =
        if p.protocol = ipprotoIcmp then ipprotoIcmpv6 else p.protocol := rfl
    rw [hprotocol, hnh6]
    by_cases hicmp : p.protocol = ipprotoIcmp
    · rw [if_pos hicmp, if_pos rfl, hicmp]
    · rw [if_neg hicmp, if_neg hproto]
  offset := by
    rw [Iphdr.offset, hfrag]
    show (bswap16 (bswap16 _)).toNat % 8192 = _
    rw [bswap16_bswap16, returnFrag4_offset]
  more := by
    rw [Iphdr.more, hfrag]
    show (bswap16 (bswap16 _)).toNat.testBit 13 = _
    rw [bswap16_bswap16, returnFrag4_more]
  ident := by
    rw [Iphdr.ident, hid]
    show (bswap16 (bswap16 _)).toNat = _
    rw [bswap16_bswap16, toNat_returnId]
  dontFragment := by
    rw [Iphdr.dontFragment, hfrag]
    show (bswap16 (bswap16 _)).toNat.testBit 14 = _
    rw [bswap16_bswap16, returnFrag4_dontFragment]

end Rebuilt

/-! ## The checksum comes back -/

/-- The IPv6 header of a reply. -/
def Ipv6hdr.swap (h : Ipv6hdr) : Ipv6hdr :=
  { h with saddr := h.daddr, daddr := h.saddr }

theorem cast_leSum_pseudo6_swap (h : Ipv6hdr) {n : ℕ} (hn : n < 65536) :
    (leSum (pseudo6 h.swap n) : ZMod 65535) = leSum (pseudo6 h n) := by
  rw [cast_leSum_pseudo6 _ hn, cast_leSum_pseudo6 _ hn, leSum_append (by simp),
    leSum_append (by simp)]
  show ((leSum h.daddr.bytes + leSum h.saddr.bytes : ℕ) : ZMod 65535)
    + (leSum [0, h.nexthdr] + leSum (be16Bytes n)) = _
  push_cast
  ring

/-- The positions of the checksum. -/
def ChecksumField (protocol : UInt8) (i : ℕ) : Prop :=
  i = csumOffset protocol ∨ i = csumOffset protocol + 1

/-- TCP, UDP with a checksum where there is one to see, or an ICMP message with a complete
header. -/
def Returnable (p : Iphdr) (l4 : List UInt8) : Prop :=
  p.protocol = ipprotoTcp ∨ p.protocol = ipprotoUdp ∧ (p.offset = 0 → load16 l4 6 ≠ 0) ∨
    p.protocol = ipprotoIcmp ∧ 8 ≤ l4.length

instance (p : Iphdr) (l4 : List UInt8) : Decidable (Returnable p l4) :=
  inferInstanceAs (Decidable (_ ∨ _))

/-- The local variables `w` of `clat_ingress` are those of a reply to the packet that left with the
local variables `v`. -/
structure Returns (c : Constants) (v : EgressVars) (w : IngressVars) : Prop where
  saddr6 : w.saddr6 = (v.h6 c).daddr
  daddr6 : w.daddr6 = (v.h6 c).saddr
  srcMapped : w.srcMapped = true
  nh : w.nh = v.nh6
  first : w.first = v.first
  payloadLen : w.payloadLen = v.l4len

section Back

variable {p : Iphdr} {w : IngressVars} {st st' : IpSummed} {l4 l4' : List UInt8}

/-- **The difference of TCP and UDP is taken back.** -/
theorem cast_ingressDiff_return (hk : k.Lawful) (hsrc : p.saddr = c.podIp4)
    (hw : Returns c (egressVars p) w) :
    ((ingressDiff k c w).toNat : ZMod 65535) = -(egressDiff k c (egressVars p)).toNat := by
  have hsa : (w.h4 k c 0).saddr = p.daddr := by
    show (if w.srcMapped then w.saddr6.w3 else c.errIp4) = p.daddr
    rw [hw.srcMapped, if_pos rfl, hw.saddr6]
    rfl
  have hda : (w.h4 k c 0).daddr = p.saddr := hsrc.symm
  have hsa' : (egressVars p).saddr = p.saddr := rfl
  have hda' : (egressVars p).daddr = p.daddr := rfl
  rw [cast_ingressDiff hk c w 0, cast_egressDiff hk, hsa, hda, hsa', hda', hw.saddr6, hw.daddr6,
    leSum_append (by simp), leSum_append (by simp), leSum_append (by simp), leSum_append (by simp)]
  push_cast
  ring

/-- **The difference of an echo is taken back.** -/
theorem cast_ingressEchoDiff_return (hk : k.Lawful) (hw : Returns c (egressVars p) w)
    (hnh : ((egressVars p).h6 c).nexthdr = ipprotoIcmpv6) {t4 t6 : UInt8} (ht : echoType4 t6 = t4)
    (code : UInt8) :
    ((ingressEchoDiff k w t6 code).toNat : ZMod 65535)
      = -(egressIcmpDiff k c (egressVars p) t4 t6 code).toNat := by
  have hlt := egressVars_l4len_lt p
  have hicmp : ((ingressIcmpDiff k w).toNat : ZMod 65535)
      = -leSum (pseudo6 ((egressVars p).h6 c).swap w.payloadLen) :=
    cast_ingressIcmpDiff hk hw.saddr6 hw.daddr6 hnh
  rw [ingressEchoDiff, cast_csumDiff_typeWord hk, hicmp, hw.payloadLen,
    cast_leSum_pseudo6_swap _ hlt, cast_egressIcmpDiff hk hnh, ht]
  ring

/-- The transport bytes `out` are the bytes `l4` again: nothing has changed but the checksum, and
that only within its class modulo `65535`. -/
structure SameTransport (p : Iphdr) (l4 out : List UInt8) : Prop where
  bytes : SameExcept (fun i => p.offset = 0 ∧ ChecksumField p.protocol i) l4 out
  checksum : p.offset = 0 →
    (bpfNtohs (load16 out (csumOffset p.protocol))).toNat ≡
      (bpfNtohs (load16 l4 (csumOffset p.protocol))).toNat [MOD 65535]

theorem sameTransport_of_cast {i : ℕ} {out : List UInt8} (hi : csumOffset p.protocol = i)
    (hoff : p.offset = 0) (hsame : SameExcept (fun j => j = i ∨ j = i + 1) l4 out)
    (hcast : ((load16 out i).toNat : ZMod 65535) = (load16 l4 i).toNat) :
    SameTransport p l4 out := by
  refine ⟨hsame.mono fun j hj => ⟨hoff, ?_⟩, fun _ => ?_⟩
  · rw [ChecksumField, hi]
    exact hj
  · rw [hi, ← ZMod.natCast_eq_natCast_iff, cast_bswap16, cast_bswap16, hcast]

/-- Fragments but the first, whose bytes no program looks at. -/
theorem return_later_fragment (hw : Returns c (egressVars p) w) (hoff : p.offset ≠ 0)
    (h : egressPayload k c st (egressVars p) l4 = .ok l4') :
    ∃ out, ingressPayload k c st' w l4' = .ok (sameLength w out) ∧ SameTransport p l4 out := by
  have hfirst : ¬ (egressVars p).first = true := egressVars_first.not.mpr hoff
  rw [egressPayload, if_neg hfirst] at h
  cases h
  refine ⟨l4, ?_, SameExcept.refl _ _, fun h => absurd h hoff⟩
  rw [ingressPayload, hw.first, if_neg hfirst]

/-- **TCP, and UDP with a checksum**: egress and ingress update the checksum by differences that
cancel. -/
theorem return_checksum (hk : k.Lawful) (hsrc : p.saddr = c.podIp4)
    (hw : Returns c (egressVars p) w) (hsign : st'.sign = st.sign) (hoff : p.offset = 0)
    (hkind : HasChecksum p.protocol l4) (h : egressPayload k c st (egressVars p) l4 = .ok l4') :
    ∃ out, ingressPayload k c st' w l4' = .ok (sameLength w out) ∧ SameTransport p l4 out := by
  obtain ⟨hlen, rfl⟩ := (egressPayload_checksum hoff hkind).mp h
  have hfirst : w.first = true := hw.first.trans (egressVars_first.mpr hoff)
  have hnh : w.nh = p.protocol := hw.nh.trans (if_neg hkind.ne_icmp.1)
  generalize hd : egressDiff k c (egressVars p) = d
  -- egress never writes a null checksum, so ingress does not take the packet for one without
  have hkind' := hkind.update hlen st d
  have hlen' : csumOffset p.protocol + 2 ≤ (updateTransport st p.protocol d l4).length := by
    rwa [length_updateTransport hlen]
  refine ⟨updateTransport st' p.protocol (ingressDiff k c w) (updateTransport st p.protocol d l4),
    ?_, sameTransport_of_cast rfl hoff ((updateCsum_sameExcept hlen fun j hj => hj).trans
      (updateCsum_sameExcept hlen' fun j hj => hj)) ?_⟩
  · rw [← hnh] at hkind' hlen' ⊢
    exact (ingressPayload_checksum hfirst hkind').mpr ⟨hlen', rfl⟩
  · rw [cast_load16_updateTransport hkind' hlen', cast_load16_updateTransport hkind hlen,
      cast_ingressDiff_return hk hsrc hw, hd, hsign]
    ring

theorem Returns.ingressPayload_icmp (hw : Returns c (egressVars p) w) (hoff : p.offset = 0)
    (hproto : p.protocol = ipprotoIcmp) (st : IpSummed) (l4 : List UInt8) :
    ingressPayload k c st w l4 = ingressIcmpBytes k c st w l4 := by
  have hfirst : w.first = true := hw.first.trans (egressVars_first.mpr hoff)
  have hnh : w.nh = ipprotoIcmpv6 := hw.nh.trans (if_pos hproto)
  exact CiliumClat.ingressPayload_icmp hfirst hnh

/-- The ICMP types come back, in a message and in a quote. -/
theorem echo_of_egressIcmpType {t4 t6 : UInt8} (h : egressIcmpType t4 = .ok t6) :
    IsEcho6 t6 ∧ echoType4 t6 = t4 ∧ innerEchoType t6 = t4 := by
  rcases egressIcmpType_eq_ok.mp h with ⟨rfl, rfl⟩ | ⟨rfl, rfl⟩
  · exact ⟨Or.inr rfl, rfl, rfl⟩
  · exact ⟨Or.inl rfl, rfl, rfl⟩

/-- Two changes of the type, of which the second takes back the first, with updates of the checksum
that cancel. -/
theorem sameTransport_of_types (hproto : p.protocol = ipprotoIcmp) (hoff : p.offset = 0)
    (hlen : 4 ≤ l4.length) (hsign : st'.sign = st.sign) (t : UInt8) {d d' : UInt32}
    (hback : (d'.toNat : ZMod 65535) = -d.toNat) :
    SameTransport p l4 (updateCsum st' pseudoHdr d' 2
      (splice (updateCsum st pseudoHdr d 2 (splice l4 0 [t])) 0 [load8 l4 0])) := by
  have hfield : csumOffset p.protocol = 2 := by
    rw [csumOffset, hproto]
    rfl
  have hone := singleton_fits t (show 1 ≤ l4.length by omega)
  have hcsum : 2 + 2 ≤ (splice l4 0 [t]).length := by
    rwa [length_splice hone]
  have hmid : (updateCsum st pseudoHdr d 2 (splice l4 0 [t])).length = l4.length :=
    length_updateCsum_type hlen t
  have hone' := singleton_fits (load8 l4 0)
    (show 1 ≤ (updateCsum st pseudoHdr d 2 (splice l4 0 [t])).length by omega)
  have hcsum' : 2 + 2 ≤
      (splice (updateCsum st pseudoHdr d 2 (splice l4 0 [t])) 0 [load8 l4 0]).length := by
    rw [length_splice hone', hmid]
    exact hlen
  refine sameTransport_of_cast hfield hoff ?_ ?_
  · have hall : SameExcept (fun j => j = 0 ∨ j = 2 ∨ j = 2 + 1) l4 (updateCsum st' pseudoHdr d' 2
        (splice (updateCsum st pseudoHdr d 2 (splice l4 0 [t])) 0 [load8 l4 0])) :=
      (((SameExcept.splice hone fun j h₁ h₂ => Or.inl (by simpa using h₂)).trans
        (updateCsum_sameExcept hcsum fun j hj => Or.inr hj)).trans
        (SameExcept.splice hone' fun j h₁ h₂ => Or.inl (by simpa using h₂))).trans
        (updateCsum_sameExcept hcsum' fun j hj => Or.inr hj)
    refine hall.restore fun j hj hno => ?_
    obtain rfl : j = 0 := hj.resolve_right hno
    exact ⟨by omega, load8_updateCsum_type (by omega) _⟩
  · rw [cast_load16_updateCsum hcsum' rfl fun hz => Bool.false_ne_true hz.1,
      load16_splice_of_disjoint hone' (Or.inr (by simp)),
      cast_load16_updateCsum hcsum rfl fun hz => Bool.false_ne_true hz.1,
      load16_splice_of_disjoint hone (Or.inr (by simp)), hback, hsign]
    ring

/-- ICMP echo, with a complete header. -/
theorem return_icmp (hk : k.Lawful) (hw : Returns c (egressVars p) w)
    (hnh6 : ((egressVars p).h6 c).nexthdr = ipprotoIcmpv6) (hsign : st'.sign = st.sign)
    (hoff : p.offset = 0) (hproto : p.protocol = ipprotoIcmp) (hlen : 8 ≤ l4.length)
    (h : egressPayload k c st (egressVars p) l4 = .ok l4') :
    ∃ out, ingressPayload k c st' w l4' = .ok (sameLength w out) ∧ SameTransport p l4 out := by
  rw [egressPayload_icmp hoff hproto] at h
  obtain ⟨hlen', t6, ht6, rfl⟩ := egressIcmpBytes_eq_ok.mp h
  obtain ⟨hecho, ht4, -⟩ := echo_of_egressIcmpType ht6
  generalize hd : egressIcmpDiff k c (egressVars p) (load8 l4 0) t6 (load8 l4 1) = d
  have hback := cast_ingressEchoDiff_return hk hw hnh6 ht4 (load8 l4 1)
  rw [hd] at hback
  refine ⟨_, ?_, sameTransport_of_types hproto hoff hlen' hsign t6 hback⟩
  rw [hw.ingressPayload_icmp hoff hproto, ingressIcmpBytes_eq_ok, load8_updateCsum_type hlen',
    load8_updateCsum_code hlen', length_updateCsum_type hlen', ht4]
  exact ⟨hlen, Or.inl ⟨hecho, rfl⟩⟩

end Back

/-! ## The reply -/

/-- A frame with the source and destination of its IPv6 header exchanged. -/
def swapAddresses6 (q : List UInt8) : List UInt8 :=
  q.take 22 ++ (slice q 38 16 ++ (slice q 22 16 ++ q.drop 54))

theorem swapAddresses6_append {hd : List UInt8} (hhd : hd.length = ethHlen) (h : Ipv6hdr)
    (r : List UInt8) : swapAddresses6 (hd ++ (h.bytes ++ r)) = hd ++ (h.swap.bytes ++ r) := by
  let fixed := le32Bytes h.vtcFlow ++ (le16Bytes h.payloadLen ++ [h.nexthdr, h.hopLimit])
  have hbytes : ∀ h' : Ipv6hdr, h'.vtcFlow = h.vtcFlow → h'.payloadLen = h.payloadLen →
      h'.nexthdr = h.nexthdr → h'.hopLimit = h.hopLimit →
      hd ++ (h'.bytes ++ r) = (hd ++ fixed) ++ (h'.saddr.bytes ++ (h'.daddr.bytes ++ r)) := by
    intro h' h₁ h₂ h₃ h₄
    simp only [Ipv6hdr.bytes, h₁, h₂, h₃, h₄, fixed, List.append_assoc]
  have hfixed : (hd ++ fixed).length = 22 := by
    rw [List.length_append, hhd]
    rfl
  have hsrc : ((hd ++ fixed) ++ h.saddr.bytes).length = 38 := by
    rw [List.length_append, hfixed, In6Addr.length_bytes]
  have hdst : ((hd ++ fixed) ++ (h.saddr.bytes ++ h.daddr.bytes)).length = 54 := by
    rw [List.length_append, hfixed, List.length_append, In6Addr.length_bytes, In6Addr.length_bytes]
  rw [hbytes h rfl rfl rfl rfl, hbytes h.swap rfl rfl rfl rfl, swapAddresses6,
    List.take_left' hfixed,
    slice_append hfixed (In6Addr.length_bytes _)]
  congr 1
  have h₁ : slice ((hd ++ fixed) ++ (h.saddr.bytes ++ (h.daddr.bytes ++ r))) 38 16
      = h.daddr.bytes := by
    rw [← List.append_assoc (hd ++ fixed), slice_append hsrc (In6Addr.length_bytes _)]
  have h₂ : ((hd ++ fixed) ++ (h.saddr.bytes ++ (h.daddr.bytes ++ r))).drop 54 = r := by
    rw [← List.append_assoc h.saddr.bytes, ← List.append_assoc (hd ++ fixed), List.drop_left' hdst]
  rw [h₁, h₂]
  rfl

/-- The local variables of `clat_ingress` for a reply. -/
def replyVars (c : Constants) (v : EgressVars) : IngressVars :=
  if v.isFrag then fragVars (v.h6 c).swap v.fh (v.h6 c).daddr (v.h6 c).saddr true
  else plainVars (v.h6 c).swap (v.h6 c).daddr (v.h6 c).saddr true

section Reply

variable {p : Iphdr}

/-- TCP, UDP and ICMP. -/
def PlainProtocol (protocol : UInt8) : Prop :=
  protocol = ipprotoTcp ∨ protocol = ipprotoUdp ∨ protocol = ipprotoIcmp

theorem Returnable.plainProtocol {l4 : List UInt8} (h : Returnable p l4) :
    PlainProtocol p.protocol := by
  rcases h with h | ⟨h, -⟩ | ⟨h, -⟩
  · exact Or.inl h
  · exact Or.inr (Or.inl h)
  · exact Or.inr (Or.inr h)

theorem PlainProtocol.not_isExtHdr (h : PlainProtocol p.protocol) :
    isExtHdr (egressVars p).nh6 = false ∧ p.protocol ≠ ipprotoIcmpv6 := by
  have hnh6 : (egressVars p).nh6 = if p.protocol = ipprotoIcmp then ipprotoIcmpv6 else p.protocol :=
    rfl
  rw [hnh6]
  rcases h with h | h | h
  · rw [h]
    decide
  · rw [h]
    decide
  · rw [h]
    decide

/-- The length field of egress, taken apart again. -/
theorem toNat_h6_payloadLen (hacc : HeaderAccepted c p) :
    (bpfNtohs ((egressVars p).h6 c).payloadLen).toNat =
      (egressVars p).l4len + if (egressVars p).isFrag then fragHlen else 0 := by
  have hlen := h6_length hacc
  rw [Ipv6hdr.length] at hlen
  rw [hlen, egressVars_l4len]
  congr 1
  exact if_congr egressVars_isFrag.symm rfl rfl

theorem replyVars_returns (hacc : HeaderAccepted c p) :
    Returns c (egressVars p) (replyVars c (egressVars p)) := by
  have hlen := toNat_h6_payloadLen hacc
  rw [replyVars]
  by_cases hfrag : (egressVars p).isFrag
  · rw [if_pos hfrag] at hlen ⊢
    refine ⟨rfl, rfl, rfl, rfl, ?_, ?_⟩
    · rw [Bool.eq_iff_iff, fragVars_first, fh_offset, egressVars_first]
    · show (bpfNtohs ((egressVars p).h6 c).payloadLen).toNat - fragHlen = _
      rw [hlen, Nat.add_sub_cancel]
  · rw [if_neg hfrag] at hlen ⊢
    have hplain := egressVars_isFrag.not.mp hfrag
    refine ⟨rfl, rfl, rfl, ?_, ?_, hlen⟩
    · exact if_neg hfrag
    · exact (egressVars_first.mpr (not_not.mp fun hoff => hplain (Or.inr hoff))).symm

theorem inPrefix_h6_daddr (c : Constants) (v : EgressVars) :
    inPrefix c (v.h6 c).daddr = true :=
  inPrefix_iff.mpr rfl

/-- The frame of a reply to the packet with header `p`: MAC header, headers with the addresses
exchanged, and transport bytes. -/
def replyFrame (c : Constants) (hd : List UInt8) (p : Iphdr) (l4 : List UInt8) : List UInt8 :=
  hd ++ (((egressVars p).h6 c).swap.bytes ++ ((egressVars p).fragBytes ++ l4))

variable {hd l4 : List UInt8}

theorem ipv6hdr_load_replyFrame (c : Constants) (p : Iphdr) (l4 : List UInt8)
    (hhd : hd.length = ethHlen) :
    Ipv6hdr.load (replyFrame c hd p l4) ethHlen = ((egressVars p).h6 c).swap :=
  Ipv6hdr.load_append_bytes hhd _ _

theorem length_replyFrame (c : Constants) (p : Iphdr) (l4 : List UInt8)
    (hhd : hd.length = ethHlen) :
    (replyFrame c hd p l4).length =
      ethHlen + ip6Hlen + (if (egressVars p).isFrag then fragHlen else 0) + l4.length :=
  length_append_headers hhd _ _ l4

theorem replyVars_isFrag (c : Constants) (v : EgressVars) :
    (replyVars c v).isFrag = v.isFrag := by
  rw [replyVars]
  split
  · next h => exact h.symm
  · next h => exact (Bool.eq_false_iff.mpr h).symm

/-- `clat_ingress` reads the headers of a reply. -/
theorem ingressVars_replyFrame (l4 : List UInt8) (hhd : hd.length = ethHlen)
    (hacc : HeaderAccepted c p) (hproto : PlainProtocol p.protocol) :
    ingressVars c (replyFrame c hd p l4) = .ok (replyVars c (egressVars p)) := by
  have hload := ipv6hdr_load_replyFrame c p l4 hhd
  have hlen := length_replyFrame c p l4 hhd
  have hext := hproto.not_isExtHdr
  have hsrc : inPrefix c ((egressVars p).h6 c).swap.saddr = true := inPrefix_h6_daddr c _
  have hwnh := (replyVars_returns hacc).nh
  rw [ingressVars_eq_ok, hload, hsrc, hwnh]
  refine ⟨hext.1, ?_, ?_⟩
  · -- an ICMP fragment is not translated in the first place
    rintro ⟨hnh, hisFrag⟩
    rw [replyVars_isFrag] at hisFrag
    refine hacc.notFragIcmp ⟨hisFrag, ?_⟩
    by_contra hicmp
    have hnh6 : (egressVars p).nh6 = p.protocol := if_neg hicmp
    exact hext.2 (hnh6.symm.trans hnh)
  · by_cases hfrag : (egressVars p).isFrag
    · have hfh : FragHdr.load (replyFrame c hd p l4) (ethHlen + ip6Hlen) = (egressVars p).fh :=
        fragHdr_load_append_headers hhd _ hfrag l4
      rw [if_pos hfrag] at hlen
      refine Or.inr ⟨if_pos hfrag, ?_, ?_, ?_⟩
      · rw [hlen]
        exact Nat.le_add_right _ _
      · have hpay := toNat_h6_payloadLen hacc
        rw [if_pos hfrag] at hpay
        have hpay' : (bpfNtohs ((egressVars p).h6 c).swap.payloadLen).toNat
          = (egressVars p).l4len + fragHlen := hpay
        rw [hpay']
        exact Nat.le_add_left _ _
      · rw [hfh, replyVars, if_pos hfrag]
        rfl
    · refine Or.inl ⟨?_, ?_⟩
      · exact h6_nexthdr_ne_fragment (c := c) hfrag hext.1
      · rw [replyVars, if_neg hfrag]
        rfl

theorem replyVars_l4 (hhd : hd.length = ethHlen) :
    (replyVars c (egressVars p)).l4 (replyFrame c hd p l4) = l4 := by
  rw [IngressVars.l4, replyVars_isFrag]
  exact drop_append_headers hhd _ _ l4

/-- The header of a reply. -/
theorem sameFields_reply (k : Kernel) (hacc : HeaderAccepted c p)
    (hopt : p.headerLength = ip4Hlen) (hproto : PlainProtocol p.protocol) :
    SameFields p ((replyVars c (egressVars p)).h4 k c (replyVars c (egressVars p)).totLen) := by
  have hw := replyVars_returns hacc
  have hid : (replyVars c (egressVars p)).id = returnId (egressVars p) := by
    rw [replyVars, returnId]
    split
    · rfl
    · rfl
  have hfrag4 : (replyVars c (egressVars p)).frag4 = returnFrag4 (egressVars p) := by
    rw [replyVars, returnFrag4]
    split
    · rfl
    · rfl
  have htos : (replyVars c (egressVars p)).tos
      = (bpfNtohl ((egressVars p).h6 c).vtcFlow >>> (20 : UInt32)).toUInt8 := by
    rw [replyVars]
    split
    · rfl
    · rfl
  have hhop : (replyVars c (egressVars p)).hop = p.ttl := by
    rw [replyVars]
    split
    · rfl
    · rfl
  refine sameFields_rebuilt hacc hopt hproto.not_isExtHdr.2 rfl rfl htos ?_ ?_ ?_ hhop ?_
  · show bpfHtons (UInt16.ofNat ((replyVars c (egressVars p)).payloadLen + ip4Hlen)) = _
    rw [hw.payloadLen]
  · rw [← hid]
    rfl
  · rw [← hfrag4]
    rfl
  · rw [← hw.nh]
    rfl

/-- An accepted ICMP message is no fragment. -/
theorem HeaderAccepted.not_isFrag_of_icmp (hacc : HeaderAccepted c p)
    (hproto : p.protocol = ipprotoIcmp) : (egressVars p).isFrag = false ∧ p.offset = 0 := by
  have hfrag : ¬ (egressVars p).isFrag = true := fun h => hacc.notFragIcmp ⟨h, hproto⟩
  exact ⟨Bool.eq_false_iff.mpr hfrag,
    not_not.mp fun hoff => egressVars_isFrag.not.mp hfrag (Or.inr hoff)⟩

/-- **The transport bytes come back.** -/
theorem ingressPayload_of_egressPayload (hk : k.Lawful) (hacc : HeaderAccepted c p)
    {st st' : IpSummed} (hsign : st'.sign = st.sign) {l4 l4' : List UInt8}
    (hkind : Returnable p l4) (h : egressPayload k c st (egressVars p) l4 = .ok l4') :
    ∃ out, ingressPayload k c st' (replyVars c (egressVars p)) l4'
        = .ok (sameLength (replyVars c (egressVars p)) out) ∧ SameTransport p l4 out := by
  have hw := replyVars_returns hacc
  by_cases hoff : p.offset = 0
  swap
  · exact return_later_fragment hw hoff h
  rcases hkind with htcp | ⟨hudp, hnz⟩ | ⟨hicmp, hlen⟩
  · exact return_checksum hk hacc.saddr hw hsign hoff (Or.inl htcp) h
  · exact return_checksum hk hacc.saddr hw hsign hoff (Or.inr ⟨hudp, hnz hoff⟩) h
  · have hnh6 : ((egressVars p).h6 c).nexthdr = ipprotoIcmpv6 := by
      show (if (egressVars p).isFrag then ipprotoFragment else (egressVars p).nh6) = _
      rw [(hacc.not_isFrag_of_icmp hicmp).1, if_neg Bool.false_ne_true]
      exact if_pos hicmp
    exact return_icmp hk hw hnh6 hsign hoff hicmp hlen h

/-- A reply is long enough to be looked at: behind the IPv6 header there is a Fragment header or a
complete transport header. -/
theorem le_length_replyFrame {st : IpSummed} {l4' : List UInt8} (hhd : hd.length = ethHlen)
    (hkind : Returnable p l4) (h : egressPayload k c st (egressVars p) l4 = .ok l4') :
    ethHlen + ip6Hlen + fragHlen ≤ (replyFrame c hd p l4').length := by
  rw [length_replyFrame c p l4' hhd]
  by_cases hfrag : (egressVars p).isFrag
  · rw [if_pos hfrag]
    exact Nat.le_add_right _ _
  have hfirst : (egressVars p).first = true :=
    egressVars_first.mpr (not_not.mp fun hoff => egressVars_isFrag.not.mp hfrag (Or.inr hoff))
  have hsame := (egressPayload_sameExcept h).1
  have hproto : (egressVars p).proto = p.protocol := rfl
  have hlen : 8 ≤ l4.length := by
    rw [egressPayload, if_pos hfirst, egressL4Bytes, hproto] at h
    rcases hkind with htcp | ⟨hudp, -⟩ | ⟨-, hlen⟩
    · rw [if_pos htcp, csumAt_eq_ok] at h
      omega
    · have hntcp : ¬ p.protocol = ipprotoTcp := by
        rw [hudp]
        decide
      rw [if_neg hntcp, if_pos hudp] at h
      exact (egressUdpBytes_splice h).1
    · exact hlen
  rw [if_neg hfrag, hsame]
  show 14 + 40 + 8 ≤ 14 + 40 + 0 + l4.length
  omega

/-- A reply is return traffic. -/
theorem returnTraffic_replyFrame (c : Constants) (data : List UInt8) (hlen : 12 ≤ data.length)
    (p : Iphdr) (l4 : List UInt8) :
    ReturnTraffic c (replyFrame c (data.take 12 ++ le16Bytes (bpfHtons ethPIpv6)) p l4) := by
  have hhd := length_macHeader hlen (bpfHtons ethPIpv6)
  have hload := ipv6hdr_load_replyFrame c p l4 hhd
  refine ⟨?_, ?_, ?_, ?_, Or.inl ?_⟩
  · rw [replyFrame, List.append_assoc]
    exact (hasEtherType_take_append data hlen).2
  · rw [length_replyFrame c p l4 hhd, Nat.add_assoc]
    exact Nat.le_add_right _ _
  · rw [hload]
    exact h6_version (c := c) (egressVars p)
  · rw [hload]
    rfl
  · rw [hload]
    exact inPrefix_h6_daddr c _

end Reply

/-- The frame `out` is the IPv4 frame `data` with source and destination exchanged. -/
structure RoundTripped (data out : List UInt8) : Prop where
  macs : out.take 12 = data.take 12
  etherType : HasEtherType out ethPIp
  length : out.length = data.length
  fields : SameFields (Iphdr.load data ethHlen) (Iphdr.load out ethHlen)
  saddr : (Iphdr.load out ethHlen).saddr = (Iphdr.load data ethHlen).daddr
  daddr : (Iphdr.load out ethHlen).daddr = (Iphdr.load data ethHlen).saddr
  verifies : Verifies (slice out ethHlen ip4Hlen)
  transport : SameTransport (Iphdr.load data ethHlen) (transportBytes4 data)
    (out.drop (ethHlen + ip4Hlen))

/-- A header rebuilt for a reply, in front of transport bytes that came back. -/
theorem roundTripped_reply (hk : k.Lawful) {data r out : List UInt8}
    (hlen : ethHlen + ip4Hlen ≤ data.length) (hacc : HeaderAccepted c (Iphdr.load data ethHlen))
    (hopt : (Iphdr.load data ethHlen).headerLength = ip4Hlen)
    (hproto : PlainProtocol (Iphdr.load data ethHlen).protocol) (hr : 12 ≤ r.length)
    (htake : r.take 12 = data.take 12)
    (hsame : SameTransport (Iphdr.load data ethHlen) (transportBytes4 data) out) :
    RoundTripped data
      (ingressHeaders k c (replyVars c (egressVars (Iphdr.load data ethHlen))) r
        (replyVars c (egressVars (Iphdr.load data ethHlen))).totLen ++ out) := by
  have hw := replyVars_returns hacc
  have hfields := sameFields_reply k hacc hopt hproto
  generalize replyVars c (egressVars (Iphdr.load data ethHlen)) = w at hw hfields ⊢
  have hload := iphdr_load_ingressHeaders k c w w.totLen out hr
  have hhd : (ingressHeaders k c w r w.totLen).length = ethHlen + ip4Hlen :=
    length_ingressHeaders hr
  have hcomplete : ethHlen + ip4Hlen ≤ (ingressHeaders k c w r w.totLen ++ out).length := by
    rw [List.length_append, hhd]
    exact Nat.le_add_right _ _
  refine ⟨?_, hasEtherType_ingressHeaders hr, ?_, ?_, ?_, ?_, ?_, ?_⟩
  · have hmacs : (data.take 12).length = 12 := by
      rw [List.length_take]
      exact Nat.min_eq_left (le_trans (by decide) hlen)
    rw [ingressHeaders, htake, List.append_assoc, List.append_assoc, List.take_left' hmacs]
  · rw [List.length_append, hhd, hsame.bytes.1, transportBytes4, List.length_drop, hopt]
    omega
  · rw [hload]
    exact hfields
  · rw [hload]
    show (if w.srcMapped then w.saddr6.w3 else c.errIp4) = _
    rw [hw.srcMapped, if_pos rfl, hw.saddr6]
    rfl
  · rw [hload]
    exact hacc.saddr.symm
  · rw [← Iphdr.bytes_load hcomplete, hload]
    exact withCheck_verifies hk rfl
  · rw [List.drop_left' hhd]
    exact hsame

/-- **The ingress translation of a reply.** -/
theorem ingressFrame_reply (hk : k.Lawful) {st st' : IpSummed} (hsign : st'.sign = st.sign)
    {data q : List UInt8} (h : egressFrame k c st data = .ok q)
    (hopt : (Iphdr.load data ethHlen).headerLength = ip4Hlen)
    (hkind : Returnable (Iphdr.load data ethHlen) (transportBytes4 data)) :
    ReturnTraffic c (swapAddresses6 q) ∧
      ethHlen + ip6Hlen + fragHlen ≤ (swapAddresses6 q).length ∧
      ∃ out, ingressFrame k c st' (swapAddresses6 q) = .ok out ∧ RoundTripped data (out true) := by
  obtain ⟨hlen, hacc, l4', hl4', rfl⟩ := egressFrame_parts h
  have hmac : 12 ≤ data.length := le_trans (by decide) hlen
  have hmacs : (data.take 12).length = 12 := by
    rw [List.length_take]
    omega
  have hhd := length_macHeader hmac (bpfHtons ethPIpv6)
  rw [swapAddresses6_append hhd]
  change ReturnTraffic c (replyFrame c (data.take 12 ++ le16Bytes (bpfHtons ethPIpv6))
      (Iphdr.load data ethHlen) l4') ∧
    _ ≤ (replyFrame c (data.take 12 ++ le16Bytes (bpfHtons ethPIpv6))
      (Iphdr.load data ethHlen) l4').length ∧
    ∃ out, ingressFrame k c st' (replyFrame c (data.take 12 ++ le16Bytes (bpfHtons ethPIpv6))
      (Iphdr.load data ethHlen) l4') = .ok out ∧ _
  have htake : (replyFrame c (data.take 12 ++ le16Bytes (bpfHtons ethPIpv6))
      (Iphdr.load data ethHlen) l4').take 12 = data.take 12 := by
    rw [replyFrame, List.append_assoc, List.take_left' hmacs]
  have hlong := le_length_replyFrame (c := c) hhd hkind hl4'
  obtain ⟨out, hout, hsame⟩ := ingressPayload_of_egressPayload hk hacc hsign hkind hl4'
  have hvars := ingressVars_replyFrame l4' hhd hacc hkind.plainProtocol
  have hback : (replyVars c (egressVars (Iphdr.load data ethHlen))).l4
      (replyFrame c (data.take 12 ++ le16Bytes (bpfHtons ethPIpv6)) (Iphdr.load data ethHlen) l4')
        = l4' := replyVars_l4 hhd
  rw [← hback] at hout
  refine ⟨returnTraffic_replyFrame c data hmac _ _, hlong, _,
    ingressFrame_eq_ok.mpr ⟨_, _, hvars, hout, rfl⟩, ?_⟩
  exact roundTripped_reply hk hlen hacc hopt hkind.plainProtocol (le_trans (by decide) hlong) htake
    hsame

theorem IpSummed.sign_eq {st st' : IpSummed}
    (h : st' = .checksumPartial ↔ st = .checksumPartial) : st'.sign = st.sign := by
  by_cases hst : st = .checksumPartial
  · rw [hst, h.mpr hst]
  · rw [IpSummed.sign_of_ne hst, IpSummed.sign_of_ne (h.not.mpr hst)]

/-- **The round trip.**  A packet without options that egress translates comes back, with the IPv6
addresses exchanged, as the packet that was sent with the IPv4 addresses exchanged. -/
theorem round_trip (hk : k.Lawful) (h : EgressTranslates k c s)
    (hopt : (Iphdr.load s.skb.data ethHlen).headerLength = ip4Hlen)
    (hkind : Returnable (Iphdr.load s.skb.data ethHlen) (transportBytes4 s.skb.data)) {r : State}
    (hr : r.skb.data = swapAddresses6 (clatEgress k c s).2.skb.data)
    (hst : r.skb.ipSummed = .checksumPartial ↔ s.skb.ipSummed = .checksumPartial)
    (hn : NoFault k r ethPIpv6) :
    (clatIngress k c r).1 = .ok ∧ RoundTripped s.skb.data (clatIngress k c r).2.skb.data := by
  obtain ⟨hret, hlong, out, hout, hback⟩ :=
    ingressFrame_reply hk (IpSummed.sign_eq hst) (h.out hk) hopt hkind
  rw [← hr] at hret hlong hout
  obtain ⟨hok, hdata⟩ := clatIngress_of_frame hk hn hret hlong hout
  rw [hdata]
  exact ⟨hok, hback⟩

/-- The first fragment of a TCP segment, there and back. -/
theorem round_trip_fragment :
    let s := testState (testFrame4 0x2000 6 (List.range 24 |>.map UInt8.ofNat)) ethPIp
    let r := testState (swapAddresses6 (clatEgress .reference testConstants s).2.skb.data) ethPIpv6
    EgressTranslates .reference testConstants s ∧ NoFault .reference r ethPIpv6 ∧
      (clatIngress .reference testConstants r).1 = .ok ∧
      RoundTripped s.skb.data (clatIngress .reference testConstants r).2.skb.data := by
  intro s r
  have h : EgressTranslates .reference testConstants s := by decide +kernel
  have hn : NoFault .reference r ethPIpv6 := ⟨Kernel.reference_reliable, rfl⟩
  exact ⟨h, hn,
    round_trip Kernel.reference_lawful h (by decide) (Or.inl (by decide)) rfl Iff.rfl hn⟩

end CiliumClat
