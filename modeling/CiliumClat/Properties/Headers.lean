import CiliumClat.Properties.Fields
import CiliumClat.Properties.Classification

/-!
# What the translated packets look like

The headers the two programs emit, field by field and in numbers, and the bytes behind them.

Egress is described by `EgressExact`: the frame it leaves is the MAC addresses of the old frame,
the IPv6 EtherType, one IPv6 header, one Fragment header if the packet was a fragment, and the
bytes that followed the IPv4 header, of which only the transport checksum and the type of an ICMP
message may have changed.  Ingress is described by the IPv4 header it writes (`IngressHeader`) and,
for an error from a router outside the prefix, by the packet it embeds (`RouterError`).

The last part is about the length fields.  The IPv6 payload length and the IPv4 total length have
the same sixteen bits but count different things, so a payload of more than 65515 bytes has a
length in IPv6 and none in IPv4.
-/

namespace CiliumClat

open ByteList OnesComplement

variable {k : Kernel} {c : Constants} {s : State}

/-! ## Destinations without a mapping -/

/-- `224.0.0.0/4`. -/
def IsMulticast4 (a : UInt32) : Prop :=
  (bpfNtohl a).toNat / 2 ^ 28 = 14

/-- `255.255.255.255`. -/
def IsLimitedBroadcast (a : UInt32) : Prop :=
  (bpfNtohl a).toNat = 2 ^ 32 - 1

instance (a : UInt32) : Decidable (IsMulticast4 a) :=
  inferInstanceAs (Decidable (_ = _))

instance (a : UInt32) : Decidable (IsLimitedBroadcast a) :=
  inferInstanceAs (Decidable (_ = _))

/-- The first four bits of an address are those of its first byte. -/
theorem toNat_bswap32_div (a : UInt32) :
    (bswap32 a).toNat / 2 ^ 28 = a.toNat % 256 / 16 := by
  have hlow : a.toNat / 16777216 + 256 * (a.toNat / 65536 % 256)
      + 65536 * (a.toNat / 256 % 256) < 16777216 := by
    have hlt := a.toNat_lt
    omega
  rw [toNat_bswap32]
  generalize a.toNat / 16777216 + 256 * (a.toNat / 65536 % 256)
    + 65536 * (a.toNat / 256 % 256) = low at hlow ⊢
  generalize a.toNat % 256 = top
  omega

theorem isMcast_eq_false {a : UInt32} (h : isMcast a = false) :
    ¬ IsMulticast4 a ∧ ¬ IsLimitedBroadcast a := by
  rw [isMcast, Bool.or_eq_false_iff, beq_eq_false_iff_ne, beq_eq_false_iff_ne] at h
  obtain ⟨hmask, hbroadcast⟩ := h
  constructor
  · -- the mask picks the high half of the first byte
    intro hmc
    have hnibble : ∀ r : Fin 16, (224 + r.val) &&& 240 = 224 := by decide
    have hand : a.toNat &&& 240 = a.toNat % 256 &&& 240 := by
      have hmod : (a.toNat &&& 240) % 256 = a.toNat % 256 &&& 240 := Nat.and_mod_two_pow (n := 8)
      rw [← hmod, Nat.mod_eq_of_lt (lt_of_le_of_lt Nat.and_le_right (by decide))]
    rw [IsMulticast4, toNat_bswap32_div] at hmc
    refine hmask ?_
    rw [← UInt32.toNat_inj, UInt32.toNat_and]
    have hbyte : 224 + (a.toNat % 256 - 224) = a.toNat % 256 := by omega
    have hr := hnibble ⟨a.toNat % 256 - 224, by omega⟩
    rw [hbyte] at hr
    exact hand.trans hr
  · intro hbc
    refine hbroadcast ?_
    rw [← bswap32_bswap32 a]
    exact congrArg bswap32 (UInt32.toNat_inj.mp hbc)

/-- Nothing else is taken for multicast or broadcast. -/
theorem isMcast_eq_false_of_not {a : UInt32} (hmc : ¬ IsMulticast4 a)
    (hbc : ¬ IsLimitedBroadcast a) : isMcast a = false := by
  rw [isMcast, Bool.or_eq_false_iff, beq_eq_false_iff_ne, beq_eq_false_iff_ne]
  constructor
  · intro hmask
    have hbyte : ∀ r : Fin 256, r.val &&& 240 = 224 → r.val / 16 = 14 := by decide +kernel
    have hand : (a &&& bpfHtonl 0xf0000000).toNat = a.toNat % 256 &&& 240 := by
      rw [UInt32.toNat_and]
      have hmod : (a.toNat &&& 240) % 256 = a.toNat % 256 &&& 240 := Nat.and_mod_two_pow (n := 8)
      exact (Nat.mod_eq_of_lt (lt_of_le_of_lt Nat.and_le_right (by decide))).symm.trans hmod
    rw [hmask] at hand
    refine hmc ((toNat_bswap32_div a).trans ?_)
    exact hbyte ⟨a.toNat % 256, Nat.mod_lt _ (by decide)⟩ hand.symm
  · rintro rfl
    exact hbc rfl

/-! ## Egress -/

/-- The next header of an IPv4 protocol. -/
def nextHeaderOf (protocol : UInt8) : UInt8 :=
  if protocol = ipprotoIcmp then ipprotoIcmpv6 else protocol

theorem h6_nexthdr_of_not_isFragment {ip4 : Iphdr} (h : ¬ ip4.IsFragment) (c : Constants) :
    ((egressVars ip4).h6 c).nexthdr = nextHeaderOf ip4.protocol :=
  if_neg (egressVars_isFrag.not.mpr h)

/-- The IPv6 header of a packet that had the IPv4 header `ip4`. -/
structure Ip6HeaderOf (c : Constants) (ip4 : Iphdr) (h6 : Ipv6hdr) : Prop where
  version : h6.version = 6
  trafficClass : h6.trafficClass = ip4.tos.toNat
  flowLabel : h6.flowLabel = 0
  hopLimit : h6.hopLimit = ip4.ttl
  saddr : h6.saddr = c.podIp6
  daddr : h6.daddr = { c.clatPrefix with w3 := ip4.daddr }
  nexthdr : h6.nexthdr = if ip4.IsFragment then ipprotoFragment else nextHeaderOf ip4.protocol
  -- an equation between natural numbers: the payload length has not wrapped
  length : h6.length + ip4.headerLength = ip4.length + if ip4.IsFragment then fragHlen else 0

/-- The Fragment header of a packet that had the IPv4 header `ip4`. -/
structure FragHdrOf (ip4 : Iphdr) (fh : FragHdr) : Prop where
  nexthdr : fh.nexthdr = nextHeaderOf ip4.protocol
  offset : fh.offset = ip4.offset
  more : fh.more = ip4.more
  ident : fh.ident = ip4.ident
  reserved : fh.reserved = 0
  reservedBits : (bpfNtohs fh.fragOff).toNat / 2 % 4 = 0

/-- The bytes of the transport header that a translation rewrites: the checksum of TCP, UDP and
ICMP, and the type of an ICMP message, where `icmp` is the number ICMP goes by. -/
def Rewritten (icmp protocol : UInt8) (i : ℕ) : Prop :=
  protocol = ipprotoTcp ∧ (i = 16 ∨ i = 17) ∨ protocol = ipprotoUdp ∧ (i = 6 ∨ i = 7) ∨
    protocol = icmp ∧ (i = 0 ∨ i = 2 ∨ i = 3)

/-- **The exact egress translation** of the frame `data`. -/
structure EgressExact (c : Constants) (data out : List UInt8) : Prop where
  source : (Iphdr.load data ethHlen).saddr = c.podIp4
  notMulticast : ¬ IsMulticast4 (Iphdr.load data ethHlen).daddr
  notBroadcast : ¬ IsLimitedBroadcast (Iphdr.load data ethHlen).daddr
  -- the IPv4 header with its options was complete
  complete : ip4Hlen ≤ (Iphdr.load data ethHlen).headerLength ∧
    (Iphdr.load data ethHlen).headerLength ≤ (Iphdr.load data ethHlen).length ∧
    ethHlen + (Iphdr.load data ethHlen).headerLength ≤ data.length
  frame : ∃ (h6 : Ipv6hdr) (frag l4 : List UInt8),
    out = data.take 12 ++ (le16Bytes (bpfHtons ethPIpv6) ++ (h6.bytes ++ (frag ++ l4))) ∧
    Ip6HeaderOf c (Iphdr.load data ethHlen) h6 ∧
    (if (Iphdr.load data ethHlen).IsFragment then
      ∃ fh, frag = fh.bytes ∧ FragHdrOf (Iphdr.load data ethHlen) fh else frag = []) ∧
    SameExcept
      (fun i => (Iphdr.load data ethHlen).offset = 0 ∧
        Rewritten ipprotoIcmp (Iphdr.load data ethHlen).protocol i)
      (data.drop (ethHlen + (Iphdr.load data ethHlen).headerLength)) l4

theorem ip6HeaderOf_egressVars {ip4 : Iphdr} (h : HeaderAccepted c ip4) :
    Ip6HeaderOf c ip4 ((egressVars ip4).h6 c) where
  version := h6_version _
  trafficClass := h6_trafficClass _
  flowLabel := h6_flowLabel _
  hopLimit := rfl
  saddr := rfl
  daddr := rfl
  nexthdr := if_congr egressVars_isFrag rfl rfl
  length := by
    have hle := h.totLen
    rw [egressVars_ihl] at hle
    have hle' : ip4.headerLength ≤ ip4.length := hle
    rw [h6_length h]
    omega

theorem fragHdrOf_egressVars (ip4 : Iphdr) : FragHdrOf ip4 (egressVars ip4).fh where
  nexthdr := rfl
  offset := fh_offset
  more := fh_more
  ident := fh_ident
  reserved := rfl
  reservedBits := by
    rw [toNat_fh_fragOff]
    have hb := ip4.more.toNat_lt
    omega

theorem egressEdits_iff {ip4 : Iphdr} {i : ℕ} :
    egressEdits (egressVars ip4) i ↔ ip4.offset = 0 ∧ Rewritten ipprotoIcmp ip4.protocol i :=
  and_congr egressVars_first Iff.rfl

theorem egressFrame_exact {st : IpSummed} {data out : List UInt8}
    (h : egressFrame k c st data = .ok out) : EgressExact c data out := by
  obtain ⟨-, hacc, -, hihl, l4, hl4, rfl⟩ := egressFrame_eq_ok.mp h
  have hmc := isMcast_eq_false hacc.notMcast
  have hge := hacc.ihl
  have htot := hacc.totLen
  have hsame := (egressPayload_sameExcept hl4).mono fun i => egressEdits_iff.mp
  rw [payload4, egressVars_ihl] at hsame
  rw [egressVars_ihl] at hihl hge htot
  refine ⟨hacc.saddr, hmc.1, hmc.2, ⟨hge, htot, hihl⟩, _,
    (egressVars (Iphdr.load data ethHlen)).fragBytes, l4, ?_, ip6HeaderOf_egressVars hacc, ?_,
    hsame⟩
  · rw [egressHeaders, List.append_assoc, List.append_assoc, List.append_assoc]
  · rw [EgressVars.fragBytes]
    by_cases hfrag : (Iphdr.load data ethHlen).IsFragment
    · rw [if_pos hfrag, if_pos (egressVars_isFrag.mpr hfrag)]
      exact ⟨_, rfl, fragHdrOf_egressVars _⟩
    · rw [if_neg hfrag, if_neg (egressVars_isFrag.not.mpr hfrag)]

/-- **Egress is complete and exact.**  An IPv4 frame is dropped, or it leaves as the exact
translation; in particular no IPv4 frame passes. -/
theorem egress_complete_and_exact (hk : k.Lawful) (h : HasEtherType s.skb.data ethPIp) :
    (clatEgress k c s).1 = .shot ∨
      (clatEgress k c s).1 = .ok ∧ EgressExact c s.skb.data (clatEgress k c s).2.skb.data := by
  rcases clatEgress_cases hk h with ⟨out, hout, htr⟩ | ⟨key, -, hdrop, -⟩
  · rw [htr.data]
    exact Or.inr ⟨htr.verdict, egressFrame_exact hout⟩
  · exact Or.inl hdrop.verdict

/-- The first fragment of a TCP segment. -/
theorem egress_complete_and_exact_fragment :
    let s := testState (testFrame4 0x2000 6 (List.replicate 24 0)) ethPIp
    HasEtherType s.skb.data ethPIp ∧ (clatEgress .reference testConstants s).1 = .ok ∧
      EgressExact testConstants s.skb.data (clatEgress .reference testConstants s).2.skb.data := by
  intro s
  have hipv4 : HasEtherType s.skb.data ethPIp := by decide
  have hok : (clatEgress .reference testConstants s).1 = .ok := by decide +kernel
  rcases egress_complete_and_exact Kernel.reference_lawful hipv4 with hshot | ⟨-, hexact⟩
  · exact absurd (hok.symm.trans hshot) (by decide)
  · exact ⟨hipv4, hok, hexact⟩

/-! ## What ingress reads -/

/-- What follows the IPv6 header and the Fragment header of a frame. -/
def payload6 (data : List UInt8) : List UInt8 :=
  data.drop (ethHlen + ip6Hlen +
    if (Ipv6hdr.load data ethHlen).nexthdr = ipprotoFragment then fragHlen else 0)

/-- The protocol of that payload. -/
def transport6 (data : List UInt8) : UInt8 :=
  if (Ipv6hdr.load data ethHlen).nexthdr = ipprotoFragment then
    (FragHdr.load data (ethHlen + ip6Hlen)).nexthdr
  else (Ipv6hdr.load data ethHlen).nexthdr

/-- The position of that payload in its datagram, in units of eight bytes. -/
def offset6 (data : List UInt8) : ℕ :=
  if (Ipv6hdr.load data ethHlen).nexthdr = ipprotoFragment then
    (FragHdr.load data (ethHlen + ip6Hlen)).offset
  else 0

/-- The length of that payload, as the header gives it. -/
def l4Length6 (data : List UInt8) : ℕ :=
  (Ipv6hdr.load data ethHlen).length -
    if (Ipv6hdr.load data ethHlen).nexthdr = ipprotoFragment then fragHlen else 0

/-- An ICMPv6 message that is no echo; where it is translated at all, it is an error. -/
def IsIcmp6Error (data : List UInt8) : Prop :=
  (Ipv6hdr.load data ethHlen).nexthdr = ipprotoIcmpv6 ∧ ¬ IsEcho6 (load8 data (ethHlen + ip6Hlen))

instance (data : List UInt8) : Decidable (IsIcmp6Error data) :=
  inferInstanceAs (Decidable (_ ∧ _))

/-- The local variables `v` of `clat_ingress` are what the frame `data` says. -/
structure ReadAs (c : Constants) (data : List UInt8) (v : IngressVars) : Prop where
  saddr6 : v.saddr6 = (Ipv6hdr.load data ethHlen).saddr
  daddr6 : v.daddr6 = (Ipv6hdr.load data ethHlen).daddr
  srcMapped : v.srcMapped = inPrefix c (Ipv6hdr.load data ethHlen).saddr
  tos : v.tos.toNat = (Ipv6hdr.load data ethHlen).trafficClass
  hop : v.hop = (Ipv6hdr.load data ethHlen).hopLimit
  nh : v.nh = transport6 data
  isFrag : v.isFrag = true ↔ (Ipv6hdr.load data ethHlen).nexthdr = ipprotoFragment
  first : v.first = true ↔ offset6 data = 0
  payloadLen : v.payloadLen = l4Length6 data
  l4 : v.l4 data = payload6 data
  notFragIcmp : ¬ (v.nh = ipprotoIcmpv6 ∧ v.isFrag = true)
  plain : (Ipv6hdr.load data ethHlen).nexthdr ≠ ipprotoFragment → v.id = 0 ∧ v.frag4 = ipDf
  frag : (Ipv6hdr.load data ethHlen).nexthdr = ipprotoFragment →
    v.id = (bpfNtohl (FragHdr.load data (ethHlen + ip6Hlen)).identification).toUInt16 ∧
      v.frag4 = frag4Of (bpfNtohs (FragHdr.load data (ethHlen + ip6Hlen)).fragOff)

theorem ingressVars_readAs {data : List UInt8} {v : IngressVars} (h : ingressVars c data = .ok v) :
    ReadAs c data v := by
  obtain ⟨-, hicmp, ⟨hnh, rfl⟩ | ⟨hnh, -, -, rfl⟩⟩ := ingressVars_eq_ok.mp h
  · refine ⟨rfl, rfl, rfl, toNat_trafficClass _, rfl, (if_neg hnh).symm,
      iff_of_false Bool.false_ne_true hnh, iff_of_true rfl (if_neg hnh), ?_, ?_, hicmp,
      fun _ => ⟨rfl, rfl⟩, fun heq => absurd heq hnh⟩
    · rw [l4Length6, if_neg hnh]
      rfl
    · rw [payload6, if_neg hnh]
      rfl
  · refine ⟨rfl, rfl, rfl, toNat_trafficClass _, rfl, (if_pos hnh).symm, iff_of_true rfl hnh, ?_,
      ?_, ?_, hicmp, fun hne => absurd hnh hne, fun _ => ⟨rfl, rfl⟩⟩
    · rw [fragVars_first, offset6, if_pos hnh]
    · rw [l4Length6, if_pos hnh]
      rfl
    · rw [payload6, if_pos hnh]
      rfl

/-- A message that is translated as an error is one. -/
theorem ReadAs.isError_iff {data : List UInt8} {v : IngressVars} (h : ReadAs c data v) :
    v.IsError (v.l4 data) ↔ IsIcmp6Error data := by
  rw [IngressVars.IsError, h.l4]
  by_cases hnh : (Ipv6hdr.load data ethHlen).nexthdr = ipprotoFragment
  · refine iff_of_false (fun he => h.notFragIcmp ⟨he.2.1, h.isFrag.mpr hnh⟩) fun he => ?_
    exact absurd (hnh.symm.trans he.1) (by decide)
  · rw [h.first, h.nh, offset6, transport6, payload6, if_neg hnh, if_neg hnh, if_neg hnh,
      load8_drop]
    exact and_iff_right rfl

/-- Without a Fragment header the payload starts behind the IPv6 header. -/
theorem ReadAs.l4_of_plain {data : List UInt8} {v : IngressVars} (hv : ReadAs c data v)
    (h : (Ipv6hdr.load data ethHlen).nexthdr ≠ ipprotoFragment) :
    v.l4 data = data.drop (ethHlen + ip6Hlen) := by
  rw [hv.l4, payload6, if_neg h]
  rfl

/-- The position in the datagram is carried over. -/
theorem ReadAs.frag4_offset {data : List UInt8} {v : IngressVars} (hv : ReadAs c data v) :
    v.frag4.toNat % 8192 = offset6 data := by
  rw [offset6]
  by_cases hnh : (Ipv6hdr.load data ethHlen).nexthdr = ipprotoFragment
  · rw [if_pos hnh, (hv.frag hnh).2]
    exact frag4Of_offset _
  · rw [if_neg hnh, (hv.plain hnh).2]
    rfl

theorem ReadAs.offset_h4 {data : List UInt8} {v : IngressVars} (hv : ReadAs c data v)
    (k : Kernel) (c : Constants) (totLen : UInt16) : (v.h4 k c totLen).offset = offset6 data := by
  have hword : bpfNtohs (v.h4 k c totLen).fragOff = v.frag4 := bswap16_bswap16 _
  rw [Iphdr.offset, hword, hv.frag4_offset]

/-- An error has no Fragment header. -/
theorem IsIcmp6Error.plain {data : List UInt8} (h : IsIcmp6Error data) :
    (Ipv6hdr.load data ethHlen).nexthdr ≠ ipprotoFragment := by
  rw [h.1]
  decide

/-- **The parts of a translated packet**: what was read of its headers, what became of its
payload, and the frame made of both. -/
theorem IngressTranslates.parts (hk : k.Lawful) (h : IngressTranslates k c s) :
    12 ≤ s.skb.data.length ∧ ReturnTraffic c s.skb.data ∧
      ∃ (v : IngressVars) (x : IngressOut) (present : Bool), ReadAs c s.skb.data v ∧
        ingressPayload k c s.skb.ipSummed v (v.l4 s.skb.data) = .ok x ∧
        (clatIngress k c s).2.skb.data =
          ingressHeaders k c v s.skb.data (x present).1 ++ (x present).2 := by
  obtain ⟨hret, hlen, out, present, hout, hdata⟩ := h.out hk
  obtain ⟨v, x, hv, hx, rfl⟩ := ingressFrame_eq_ok.mp hout
  exact ⟨le_trans (by decide) hlen, hret, v, x, present, ingressVars_readAs hv, hx, hdata⟩

/-- The parts of an error that ingress has translated. -/
theorem IngressTranslates.error (hk : k.Lawful) (h : IngressTranslates k c s)
    (herr : IsIcmp6Error s.skb.data) :
    12 ≤ s.skb.data.length ∧
      ∃ (v : IngressVars) (x : IngressOut) (present : Bool), ReadAs c s.skb.data v ∧
        (NoFault k s ethPIpv6 → present = true) ∧
        ingressErrorBytes k c s.skb.ipSummed v (slice s.skb.data (ethHlen + ip6Hlen) 8)
          (s.skb.data.drop (ethHlen + ip6Hlen)) = .ok x ∧
        (clatIngress k c s).2.skb.data =
          ingressHeaders k c v s.skb.data (x present).1 ++ (x present).2 := by
  obtain ⟨-, hlen, out, present, hout, htr, hpresent, -⟩ := h.run hk
  obtain ⟨v, x, hv, hx, rfl⟩ := ingressFrame_eq_ok.mp hout
  have hread := ingressVars_readAs hv
  refine ⟨le_trans (by decide) hlen, v, x, present, hread, hpresent, ?_, htr.data⟩
  rcases ingressPayload_cases hx with ⟨hno, -⟩ | ⟨-, -, hbytes⟩
  · exact absurd (hread.isError_iff.mpr herr) hno
  · rwa [hread.l4_of_plain herr.plain] at hbytes

/-- The quote of a translated error is of a packet from the pod into the prefix. -/
theorem quoteBytes_in6 {l4 : List UInt8} {q : Quote} (h : quoteBytes c l4 = .ok q) :
    q.in6 = Ipv6hdr.load l4 8 ∧ FromPod c q.in6 := by
  obtain ⟨-, hpod, -, ⟨-, rfl⟩ | ⟨-, -, rfl⟩⟩ := quoteBytes_eq_ok.mp h
  · exact ⟨rfl, hpod⟩
  · exact ⟨rfl, hpod⟩

/-! ## The IPv4 headers of ingress -/

/-- The IPv4 header of the packet `out` that had the IPv6 header `ip6`. -/
structure IngressHeader (c : Constants) (ip6 : Ipv6hdr) (out : List UInt8) : Prop where
  complete : ethHlen + ip4Hlen ≤ out.length
  version : (Iphdr.load out ethHlen).version = 4
  ihl : (Iphdr.load out ethHlen).ihl = 5
  tos : (Iphdr.load out ethHlen).tos.toNat = ip6.trafficClass
  ttl : (Iphdr.load out ethHlen).ttl = ip6.hopLimit
  saddr : (Iphdr.load out ethHlen).saddr = if inPrefix c ip6.saddr then ip6.saddr.w3 else c.errIp4
  daddr : (Iphdr.load out ethHlen).daddr = c.podIp4
  verifies : Verifies (slice out ethHlen ip4Hlen)

/-- The packet `out` is an unfragmented ICMPv4 error about a packet of the pod to an address of the
prefix, namely `quoted`. -/
structure RouterError (c : Constants) (quoted : In6Addr) (out : List UInt8) : Prop where
  complete : ethHlen + ip4Hlen + 8 + ip4Hlen ≤ out.length
  notFragment : ¬ (Iphdr.load out ethHlen).IsFragment
  protocol : (Iphdr.load out ethHlen).protocol = ipprotoIcmp
  type : load8 out (ethHlen + ip4Hlen) = 3 ∨ load8 out (ethHlen + ip4Hlen) = 11 ∨
    load8 out (ethHlen + ip4Hlen) = 12
  version : (Iphdr.load out (ethHlen + ip4Hlen + 8)).version = 4
  saddr : (Iphdr.load out (ethHlen + ip4Hlen + 8)).saddr = c.podIp4
  inPrefix : inPrefix c quoted = true
  daddr : (Iphdr.load out (ethHlen + ip4Hlen + 8)).daddr = quoted.w3
  verifies : Verifies (slice out (ethHlen + ip4Hlen + 8) ip4Hlen)

theorem ingressHeader_of_readAs (hk : k.Lawful) {data l : List UInt8} {v : IngressVars}
    (hlen : 12 ≤ data.length) (hv : ReadAs c data v) (totLen : UInt16) :
    IngressHeader c (Ipv6hdr.load data ethHlen) (ingressHeaders k c v data totLen ++ l) := by
  have hload := iphdr_load_ingressHeaders k c v totLen l hlen
  have hcomplete : ethHlen + ip4Hlen ≤ (ingressHeaders k c v data totLen ++ l).length := by
    rw [List.length_append, length_ingressHeaders hlen]
    exact Nat.le_add_right _ _
  refine ⟨hcomplete, ?_, ?_, ?_, ?_, ?_, ?_, ?_⟩
  · rw [hload]
    rfl
  · rw [hload]
    rfl
  · rw [hload]
    exact hv.tos
  · rw [hload]
    exact hv.hop
  · rw [hload, ← hv.srcMapped, ← hv.saddr6]
    rfl
  · rw [hload]
    rfl
  · rw [← Iphdr.bytes_load hcomplete, hload]
    exact withCheck_verifies hk rfl

/-- The new header of a packet without a Fragment header is not one of a fragment. -/
theorem not_isFragment_h4 {v : IngressVars} (hv : v.frag4 = ipDf) (totLen : UInt16) :
    ¬ (v.h4 k c totLen).IsFragment := by
  have hword : bpfNtohs (v.h4 k c totLen).fragOff = ipDf := by
    show bswap16 (bswap16 v.frag4) = ipDf
    rw [bswap16_bswap16, hv]
  rw [Iphdr.IsFragment, Iphdr.more, Iphdr.offset, hword]
  decide

/-- The header embedded in an error. -/
theorem iphdr_load_embedded (k : Kernel) (c : Constants) (v : IngressVars) (totLen : UInt16)
    {data : List UInt8} (hlen : 12 ≤ data.length) (icmp : Icmphdr) (h : Iphdr) (rest : List UInt8) :
    Iphdr.load (ingressHeaders k c v data totLen ++ (icmp.bytes ++ (h.bytes ++ rest)))
      (ethHlen + ip4Hlen + 8) = h := by
  have hhd : (ingressHeaders k c v data totLen ++ icmp.bytes).length = ethHlen + ip4Hlen + 8 := by
    rw [List.length_append, length_ingressHeaders hlen, Icmphdr.length_bytes]
  rw [← List.append_assoc]
  exact Iphdr.load_append_bytes hhd _ _

/-- The type and the code of an error. -/
theorem load8_ingressHeaders_icmp (k : Kernel) (c : Constants) (v : IngressVars) (totLen : UInt16)
    {data : List UInt8} (hlen : 12 ≤ data.length) (icmp : Icmphdr) (rest : List UInt8) :
    load8 (ingressHeaders k c v data totLen ++ (icmp.bytes ++ rest)) (ethHlen + ip4Hlen)
        = icmp.type ∧
      load8 (ingressHeaders k c v data totLen ++ (icmp.bytes ++ rest)) (ethHlen + ip4Hlen + 1)
        = icmp.code := by
  have hhd : (ingressHeaders k c v data totLen).length = ethHlen + ip4Hlen :=
    length_ingressHeaders hlen
  exact ⟨load8_append_add hhd _ 0, load8_append_add hhd _ 1⟩

theorem routerError_of_readAs (hk : k.Lawful) {st : IpSummed} {data : List UInt8} {v : IngressVars}
    {x : IngressOut} (hlen : 12 ≤ data.length) (hv : ReadAs c data v)
    (hnh : (Ipv6hdr.load data ethHlen).nexthdr = ipprotoIcmpv6)
    (hx : ingressErrorBytes k c st v ((v.l4 data).take 8) (v.l4 data) = .ok x) (present : Bool) :
    RouterError c (Ipv6hdr.load data (ethHlen + ip6Hlen + 8)).daddr
      (ingressHeaders k c v data (x present).1 ++ (x present).2) := by
  obtain ⟨q, icmp, rest, hq, hok, hicmp, -, hout⟩ := ingressErrorBytes_parts hx present
  obtain ⟨hin6, hpod⟩ := quoteBytes_in6 hq
  have hplain : (Ipv6hdr.load data ethHlen).nexthdr ≠ ipprotoFragment := by
    rw [hnh]
    decide
  rw [hv.l4_of_plain hplain, Ipv6hdr.load_drop] at hin6
  have hhd : (ingressHeaders k c v data (x present).1).length = ingressL4off :=
    length_ingressHeaders hlen
  generalize htot : (x present).1 = totLen at hhd ⊢
  have hout' : (x present).2 = icmp.bytes ++ ((q.in4 k c).bytes ++ rest) := congrArg Prod.snd hout
  rw [hout']
  have hhd' : (ingressHeaders k c v data totLen ++ icmp.bytes).length = ethHlen + ip4Hlen + 8 := by
    rw [List.length_append, hhd, Icmphdr.length_bytes]
  have hload := iphdr_load_ingressHeaders k c v totLen
    (icmp.bytes ++ ((q.in4 k c).bytes ++ rest)) hlen
  have hinner := iphdr_load_embedded k c v totLen hlen icmp (q.in4 k c) rest
  refine ⟨?_, ?_, ?_, ?_, ?_, ?_, ?_, ?_, ?_⟩
  · rw [← List.append_assoc, List.length_append, hhd', List.length_append, Iphdr.length_bytes]
    simp only [ethHlen, ip4Hlen]
    omega
  · rw [hload]
    exact not_isFragment_h4 (hv.plain hplain).2 totLen
  · rw [hload]
    show v.proto4 = ipprotoIcmp
    rw [IngressVars.proto4, hv.nh, transport6, if_neg hplain, if_pos hnh]
  · rw [(load8_ingressHeaders_icmp k c v totLen hlen icmp _).1, hicmp.type]
    exact icmp6ToIcmp4_type hok
  · rw [hinner]
    rfl
  · rw [hinner]
    rfl
  · rw [← hin6]
    exact hpod.2.2
  · rw [hinner, ← hin6]
    rfl
  · rw [← List.append_assoc, slice_append hhd' (Iphdr.length_bytes _)]
    exact withCheck_verifies hk rfl

/-- **Every IPv4 header ingress emits is right.**  The outer header is a copy of the IPv6 header and
verifies; a packet from outside the prefix leaves as an ICMPv4 error about a packet of the pod; and
behind the header of any packet that is no ICMPv6 error only checksum and ICMP type change. -/
theorem ingress_headers_right (hk : k.Lawful) (h : IngressTranslates k c s) :
    IngressHeader c (Ipv6hdr.load s.skb.data ethHlen) (clatIngress k c s).2.skb.data ∧
    (inPrefix c (Ipv6hdr.load s.skb.data ethHlen).saddr = false →
      RouterError c (Ipv6hdr.load s.skb.data (ethHlen + ip6Hlen + 8)).daddr
        (clatIngress k c s).2.skb.data) ∧
    (¬ IsIcmp6Error s.skb.data →
      SameExcept
        (fun i => offset6 s.skb.data = 0 ∧ Rewritten ipprotoIcmpv6 (transport6 s.skb.data) i)
        (payload6 s.skb.data) ((clatIngress k c s).2.skb.data.drop (ethHlen + ip4Hlen))) := by
  obtain ⟨hlen, hret, v, x, present, hv, hx, hdata⟩ := h.parts hk
  rw [hdata]
  refine ⟨ingressHeader_of_readAs hk hlen hv _, fun hout => ?_, fun hno => ?_⟩
  · -- a source outside the prefix is return traffic only as a router error, which is no echo
    have hquotes : QuotesPod c s.skb.data :=
      hret.2.2.2.2.resolve_left (by rw [hout]; exact Bool.false_ne_true)
    have herror : IsIcmp6Error s.skb.data :=
      ⟨hquotes.1, fun hecho => hecho.not_le hquotes.2.2.2.1⟩
    rcases ingressPayload_cases hx with ⟨hnot, -⟩ | ⟨-, -, herr⟩
    · exact absurd (hv.isError_iff.mpr herror) hnot
    · exact routerError_of_readAs hk hlen hv hquotes.1 herr present
  · rcases ingressPayload_cases hx with ⟨-, l4, rfl, hsame⟩ | ⟨herr, -, -⟩
    · rw [List.drop_left' (length_ingressHeaders hlen), ← hv.l4]
      refine hsame.mono fun i hi => ⟨hv.first.mp hi.1, ?_⟩
      rw [← hv.nh]
      exact hi.2
    · exact absurd (hv.isError_iff.mp herr) hno

/-- An ICMPv6 error from a router outside the prefix, about a TCP segment of the pod. -/
def testRouterError : List UInt8 :=
  testFrame6 58 [0x20, 0x01, 0x0d, 0xb8, 0, 1, 0, 0, 0, 0, 0, 0, 0, 0, 0, 1]
    ([1, 0, 0, 0, 0, 0, 0, 0] ++ ([0x60, 0, 0, 0, 0, 20, 6, 63] ++
      (testConstants.podIp6.bytes ++ (testPeer6 ++ List.replicate 20 7))))

theorem ingress_headers_right_routerError :
    let s := testState testRouterError ethPIpv6
    IngressTranslates .reference testConstants s ∧
      IngressHeader testConstants (Ipv6hdr.load s.skb.data ethHlen)
        (clatIngress .reference testConstants s).2.skb.data ∧
      inPrefix testConstants (Ipv6hdr.load s.skb.data ethHlen).saddr = false ∧
      RouterError testConstants (Ipv6hdr.load s.skb.data (ethHlen + ip6Hlen + 8)).daddr
        (clatIngress .reference testConstants s).2.skb.data := by
  intro s
  have htr : IngressTranslates .reference testConstants s := by decide +kernel
  have hout : inPrefix testConstants (Ipv6hdr.load s.skb.data ethHlen).saddr = false := by
    decide +kernel
  have h := ingress_headers_right Kernel.reference_lawful htr
  exact ⟨htr, h.1, hout, h.2.1 hout⟩

/-! ## Lengths -/

/-- The IPv4 total length counts the bytes from the network header to the end of the frame. -/
def LengthConsistent4 (data : List UInt8) : Prop :=
  ethHlen + (Iphdr.load data ethHlen).length = data.length

instance (data : List UInt8) : Decidable (LengthConsistent4 data) :=
  inferInstanceAs (Decidable (_ = _))

/-- The IPv6 payload length counts the bytes behind the fixed header. -/
def LengthConsistent6 (data : List UInt8) : Prop :=
  ethHlen + ip6Hlen + (Ipv6hdr.load data ethHlen).length = data.length

instance (data : List UInt8) : Decidable (LengthConsistent6 data) :=
  inferInstanceAs (Decidable (_ = _))

/-- The header of an egress translation. -/
theorem ipv6hdr_load_frame (data : List UInt8) {r : List UInt8} (h : 12 ≤ data.length)
    (h6 : Ipv6hdr) :
    Ipv6hdr.load (data.take 12 ++ (le16Bytes (bpfHtons ethPIpv6) ++ (h6.bytes ++ r))) ethHlen
      = h6 := by
  rw [← List.append_assoc]
  exact Ipv6hdr.load_append_bytes (length_macHeader h _) _ _

/-- Egress keeps the length consistent, always. -/
theorem EgressExact.lengthConsistent {data out : List UInt8} (h : EgressExact c data out)
    (hlen : LengthConsistent4 data) : LengthConsistent6 out := by
  obtain ⟨h6, frag, l4, rfl, hh6, hfrag, hsame⟩ := h.frame
  obtain ⟨hge, -, hle⟩ := h.complete
  have hge' : 20 ≤ (Iphdr.load data ethHlen).headerLength := hge
  have hle' : 14 + (Iphdr.load data ethHlen).headerLength ≤ data.length := hle
  have hmac : 12 ≤ data.length := by omega
  have hl4 := hsame.1
  have hfrag' : frag.length = if (Iphdr.load data ethHlen).IsFragment then fragHlen else 0 := by
    by_cases hf : (Iphdr.load data ethHlen).IsFragment
    · rw [if_pos hf] at hfrag ⊢
      obtain ⟨fh, rfl, -⟩ := hfrag
      exact FragHdr.length_bytes fh
    · rw [if_neg hf] at hfrag ⊢
      rw [hfrag]
      rfl
  have hpay := hh6.length
  have hlen' : 14 + (Iphdr.load data ethHlen).length = data.length := hlen
  rw [LengthConsistent6, ipv6hdr_load_frame data hmac, List.length_append, List.length_append,
    List.length_append, List.length_append, List.length_take, length_le16Bytes,
    Ipv6hdr.length_bytes, hfrag', hl4, List.length_drop]
  generalize (if (Iphdr.load data ethHlen).IsFragment then fragHlen else 0) = n at hpay ⊢
  show 14 + 40 + h6.length = min 12 data.length + (2 + (40 + (n + (data.length -
    (14 + (Iphdr.load data ethHlen).headerLength)))))
  omega

/-- The total length of a packet with `n` bytes of payload, in the sixteen bits of the field. -/
theorem length_h4 (v : IngressVars) (totLen : UInt16) :
    (v.h4 k c totLen).length = totLen.toNat := by
  show (bswap16 (bswap16 totLen)).toNat = totLen.toNat
  rw [bswap16_bswap16]

/-- The payload fits into an IPv4 packet, or is an ICMPv6 error, which shrinks. -/
def FitsIpv4 (data : List UInt8) : Prop :=
  l4Length6 data ≤ 65515 ∨ IsIcmp6Error data

/-- In a length-consistent frame the payload is as long as the headers say. -/
theorem LengthConsistent6.length_payload6 {data : List UInt8} (h : LengthConsistent6 data) :
    (payload6 data).length = l4Length6 data := by
  have h' : 14 + 40 + (Ipv6hdr.load data ethHlen).length = data.length := h
  rw [payload6, l4Length6, List.length_drop]
  generalize (if (Ipv6hdr.load data ethHlen).nexthdr = ipprotoFragment then fragHlen else 0) = n
  show data.length - (14 + 40 + n) = _
  omega

theorem l4Length6_lt (data : List UInt8) : l4Length6 data < 65536 :=
  lt_of_le_of_lt (Nat.sub_le _ _) (bpfNtohs (Ipv6hdr.load data ethHlen).payloadLen).toNat_lt

/-- The total length of an error, which is computed by wrapping around and back. -/
theorem toNat_totLen_sub_shrink {v : IngressVars} {q : Quote} (hlt : v.payloadLen < 65536)
    (hle : q.shrink + 28 ≤ v.payloadLen) :
    (v.totLen - UInt16.ofNat q.shrink).toNat = v.payloadLen + 20 - q.shrink := by
  have hshrink := q.shrink_eq
  have htot : v.totLen.toNat = (v.payloadLen + 20) % 65536 := UInt16.toNat_ofNat'
  rw [UInt16.toNat_sub, htot, UInt16.toNat_ofNat']
  show (65536 - q.shrink % 65536 + (v.payloadLen + 20) % 65536) % 65536 = _
  omega

/-- Ingress keeps the length consistent exactly when the packet fits. -/
theorem ingress_lengthConsistent_iff (hk : k.Lawful) (h : IngressTranslates k c s)
    (hlen : LengthConsistent6 s.skb.data) :
    LengthConsistent4 (clatIngress k c s).2.skb.data ↔ FitsIpv4 s.skb.data := by
  obtain ⟨hmac, -, v, x, present, hv, hx, hdata⟩ := h.parts hk
  have hl4 : (v.l4 s.skb.data).length = v.payloadLen := by
    rw [hv.l4, hv.payloadLen, hlen.length_payload6]
  have hlt : v.payloadLen < 65536 := by
    rw [hv.payloadLen]
    exact l4Length6_lt _
  rw [hdata, LengthConsistent4, iphdr_load_ingressHeaders k c v _ _ hmac, length_h4,
    List.length_append, length_ingressHeaders hmac]
  rcases ingressPayload_cases hx with ⟨hno, l4, rfl, hsame⟩ | ⟨herr, -, hbytes⟩
  · -- the field is the length plus twenty, in sixteen bits
    have htot : v.totLen.toNat = (v.payloadLen + 20) % 65536 := UInt16.toNat_ofNat'
    have hfits : FitsIpv4 s.skb.data ↔ v.payloadLen ≤ 65515 := by
      rw [FitsIpv4, or_iff_left fun he => hno (hv.isError_iff.mpr he), hv.payloadLen]
    rw [hfits]
    show 14 + v.totLen.toNat = 34 + l4.length ↔ _
    rw [htot, hsame.1, hl4]
    omega
  · refine iff_of_true ?_ (Or.inr (hv.isError_iff.mp herr))
    obtain ⟨q, icmp, rest, hq, -, -, hsame, hout⟩ := ingressErrorBytes_parts hbytes present
    have hle := quoteBytes_length hq
    rw [hl4] at hle
    have hrest := hsame.1
    rw [List.length_drop, hl4] at hrest
    rw [hout]
    show 14 + (v.totLen - UInt16.ofNat q.shrink).toNat =
      34 + (icmp.bytes ++ ((q.in4 k c).bytes ++ rest)).length
    rw [toNat_totLen_sub_shrink hlt hle, List.length_append, List.length_append,
      Icmphdr.length_bytes, Iphdr.length_bytes, hrest]
    omega

/-- **Length consistency is preserved** by egress always, and by ingress exactly for the packets
whose payload, without a Fragment header, has at most 65515 bytes, and for ICMPv6 errors. -/
theorem length_consistency_preserved_iff (hk : k.Lawful) :
    (EgressTranslates k c s → LengthConsistent4 s.skb.data →
      LengthConsistent6 (clatEgress k c s).2.skb.data) ∧
    (IngressTranslates k c s → LengthConsistent6 s.skb.data →
      (LengthConsistent4 (clatIngress k c s).2.skb.data ↔ FitsIpv4 s.skb.data)) := by
  constructor
  · intro htr hlen
    exact (egressFrame_exact (htr.out hk)).lengthConsistent hlen
  · intro htr hlen
    exact ingress_lengthConsistent_iff hk htr hlen

/-- A TCP segment in each direction. -/
theorem length_consistency_preserved_tcp :
    let s := testState (testFrame4 0 6 (List.replicate 20 7)) ethPIp
    let s' := testState (testFrame6 6 testPeer6 (List.replicate 20 7)) ethPIpv6
    (EgressTranslates .reference testConstants s ∧ LengthConsistent4 s.skb.data ∧
      LengthConsistent6 (clatEgress .reference testConstants s).2.skb.data) ∧
    IngressTranslates .reference testConstants s' ∧ LengthConsistent6 s'.skb.data ∧
      FitsIpv4 s'.skb.data ∧
      LengthConsistent4 (clatIngress .reference testConstants s').2.skb.data := by
  intro s s'
  have htr : EgressTranslates .reference testConstants s := by decide +kernel
  have htr' : IngressTranslates .reference testConstants s' := by decide +kernel
  have hlen : LengthConsistent4 s.skb.data := by decide +kernel
  have hlen' : LengthConsistent6 s'.skb.data := by decide +kernel
  have hfits : FitsIpv4 s'.skb.data := Or.inl (by decide +kernel)
  have h := (length_consistency_preserved_iff (s := s) (c := testConstants)
    Kernel.reference_lawful).1 htr hlen
  have h' := (length_consistency_preserved_iff (s := s') (c := testConstants)
    Kernel.reference_lawful).2 htr' hlen'
  exact ⟨⟨htr, hlen, h⟩, htr', hlen', hfits, h'.mpr hfits⟩

/-- Any packet of an unknown protocol from the prefix is translated. -/
theorem ingressTranslates_testFrame6 {l : List UInt8} (hl : 8 ≤ l.length) :
    IngressTranslates .reference testConstants
      (testState (testFrame6 253 testPeer6 l) ethPIpv6) := by
  have hload : Ipv6hdr.load (testFrame6 253 testPeer6 l) ethHlen =
      ⟨bpfHtonl 0x60000000, bpfHtons (UInt16.ofNat l.length), 253, 60, In6Addr.load testPeer6 0,
        testConstants.podIp6⟩ :=
    ipv6hdr_load_frame testMacs (le_refl 12) _
  have hlen : (testFrame6 253 testPeer6 l).length = 54 + l.length := by
    rw [testFrame6, List.length_append, List.length_append, List.length_append]
    show 12 + (2 + (40 + l.length)) = _
    omega
  have het : HasEtherType (testFrame6 253 testPeer6 l) ethPIpv6 :=
    hasEtherType_take_append testMacs (le_refl 12)
  have hret : ReturnTraffic testConstants (testFrame6 253 testPeer6 l) := by
    refine ⟨het.2, ?_, ?_, ?_, Or.inl ?_⟩
    · rw [hlen]
      exact Nat.le_add_right 54 _
    · rw [hload]
      show BitVec.ofNat 4 ((bpfHtonl 0x60000000).toNat % 256 / 16) = 6
      decide
    · rw [hload]
    · rw [hload]
      show inPrefix testConstants (In6Addr.load testPeer6 0) = true
      decide
  have hvars : ingressVars testConstants (testFrame6 253 testPeer6 l) =
      .ok (plainVars (Ipv6hdr.load (testFrame6 253 testPeer6 l) ethHlen)
        (Ipv6hdr.load (testFrame6 253 testPeer6 l) ethHlen).saddr
        (Ipv6hdr.load (testFrame6 253 testPeer6 l) ethHlen).daddr
        (inPrefix testConstants (Ipv6hdr.load (testFrame6 253 testPeer6 l) ethHlen).saddr)) := by
    rw [ingressVars_eq_ok, hload]
    have hplain : (253 : UInt8) ≠ ipprotoFragment := by decide
    exact ⟨rfl, fun h => Bool.false_ne_true h.2, Or.inl ⟨hplain, rfl⟩⟩
  have hframe : ∃ out, ingressFrame .reference testConstants .checksumNone
      (testFrame6 253 testPeer6 l) = .ok out := by
    rw [ingressFrame, hvars, hload]
    exact ⟨_, rfl⟩
  obtain ⟨out, hout⟩ := hframe
  have hrun := clatIngress_of_frame
    (s := testState (testFrame6 253 testPeer6 l) ethPIpv6) Kernel.reference_lawful
    ⟨Kernel.reference_reliable, rfl⟩ hret (by
      show 62 ≤ (testFrame6 253 testPeer6 l).length
      omega) hout
  refine ⟨het, hrun.1, ?_⟩
  rw [hrun.2]
  obtain ⟨v, x, -, -, rfl⟩ := ingressFrame_eq_ok.mp hout
  refine hasEtherType_ingressHeaders ?_
  omega

/-- A packet of an unknown protocol with 65516 bytes of payload leaves with a total length of
zero. -/
theorem ingress_total_length_wraps :
    Kernel.reference.Lawful ∧
    let s := testState (testFrame6 253 testPeer6 (List.replicate 65516 0)) ethPIpv6
    IngressTranslates .reference testConstants s ∧ LengthConsistent6 s.skb.data ∧
      ¬ LengthConsistent4 (clatIngress .reference testConstants s).2.skb.data := by
  refine ⟨Kernel.reference_lawful, ?_⟩
  generalize hl : List.replicate 65516 (0 : UInt8) = l
  have hll : l.length = 65516 := by rw [← hl, List.length_replicate]
  intro s
  have hload : Ipv6hdr.load s.skb.data ethHlen =
      ⟨bpfHtonl 0x60000000, bpfHtons (UInt16.ofNat l.length), 253, 60, In6Addr.load testPeer6 0,
        testConstants.podIp6⟩ :=
    ipv6hdr_load_frame testMacs (le_refl 12) _
  have htr : IngressTranslates .reference testConstants s :=
    ingressTranslates_testFrame6 (by omega)
  have hpay : (Ipv6hdr.load s.skb.data ethHlen).length = 65516 := by
    rw [hload, hll]
    rfl
  have hlen : LengthConsistent6 s.skb.data := by
    rw [LengthConsistent6, hpay]
    show 14 + 40 + 65516 = (testFrame6 253 testPeer6 l).length
    rw [testFrame6, List.length_append, List.length_append, List.length_append, hll]
    rfl
  refine ⟨htr, hlen, ?_⟩
  have hnh : (Ipv6hdr.load s.skb.data ethHlen).nexthdr = 253 := by rw [hload]
  rw [ingress_lengthConsistent_iff Kernel.reference_lawful htr hlen, FitsIpv4, l4Length6, hpay,
    IsIcmp6Error, hnh]
  rintro (hle | ⟨hicmp, -⟩)
  · exact absurd hle (by decide)
  · exact absurd hicmp (by decide)

end CiliumClat
