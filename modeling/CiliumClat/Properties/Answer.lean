import CiliumClat.Properties.RoundTrip

/-!
# Back and there

`RoundTrip` follows a packet of the pod out and the reply back in.  This is the other way round, for
a pod that is spoken to: a packet comes in through `clat_ingress`, the pod answers it, and the
answer leaves through `clat_egress`.  The answer is modelled by the IPv4 packet that came in with
its addresses exchanged.

IPv6 headers say more than IPv4 headers can.  What does not come back is the flow label, the upper
half of the identification of a fragment and its reserved bits; everything else does, and a
checksum within its class modulo `65535`.  A packet that has a Fragment header and is no fragment
would lose that header, and is left out, as are multicast and broadcast sources, to which nothing
is sent.

The pair of programs is the same as in the round trip, and so is what relates their local variables
(`Returns`): here it is proved of the variables of the answer, given those of the packet.
-/

namespace CiliumClat

open ByteList OnesComplement EarlyExit

variable {k : Kernel} {c : Constants} {s : State}

/-! ## The answer -/

/-- The IPv4 header of an answer. -/
def Iphdr.swap (h : Iphdr) : Iphdr :=
  { h with saddr := h.daddr, daddr := h.saddr }

/-- A frame with the source and destination of its IPv4 header exchanged. -/
def swapAddresses4 (d : List UInt8) : List UInt8 :=
  d.take 26 ++ (slice d 30 4 ++ (slice d 26 4 ++ d.drop 34))

theorem swapAddresses4_append {hd : List UInt8} (hhd : hd.length = ethHlen) (h : Iphdr)
    (r : List UInt8) : swapAddresses4 (hd ++ (h.bytes ++ r)) = hd ++ (h.swap.bytes ++ r) := by
  let fixed := [UInt8.ofNat (16 * h.version.toNat + h.ihl.toNat), h.tos] ++ (le16Bytes h.totLen ++
    (le16Bytes h.id ++ (le16Bytes h.fragOff ++ ([h.ttl, h.protocol] ++ le16Bytes h.check))))
  have hbytes : hd ++ (h.bytes ++ r) =
      (hd ++ fixed) ++ (le32Bytes h.saddr ++ (le32Bytes h.daddr ++ r)) := by
    simp only [Iphdr.bytes, fixed, List.append_assoc]
  have hswap : hd ++ (h.swap.bytes ++ r) =
      (hd ++ fixed) ++ (le32Bytes h.daddr ++ (le32Bytes h.saddr ++ r)) := by
    simp only [Iphdr.bytes, Iphdr.swap, fixed, List.append_assoc]
  have hfixed : (hd ++ fixed).length = 26 := by
    rw [List.length_append, hhd]
    rfl
  have hsrc : ((hd ++ fixed) ++ le32Bytes h.saddr).length = 30 := by
    rw [List.length_append, hfixed]
    rfl
  have hdst : ((hd ++ fixed) ++ (le32Bytes h.saddr ++ le32Bytes h.daddr)).length = 34 := by
    rw [List.length_append, hfixed]
    rfl
  have h₁ : slice ((hd ++ fixed) ++ (le32Bytes h.saddr ++ (le32Bytes h.daddr ++ r))) 30 4
      = le32Bytes h.daddr := by
    rw [← List.append_assoc (hd ++ fixed), slice_append hsrc (length_le32Bytes _)]
  have h₂ : ((hd ++ fixed) ++ (le32Bytes h.saddr ++ (le32Bytes h.daddr ++ r))).drop 34 = r := by
    rw [← List.append_assoc (le32Bytes h.saddr), ← List.append_assoc (hd ++ fixed),
      List.drop_left' hdst]
  rw [hbytes, hswap, swapAddresses4, List.take_left' hfixed,
    slice_append hfixed (length_le32Bytes _), h₁, h₂]

/-! ## Its header -/

/-- A packet that can be answered: it is not from the multicast or broadcast address, its payload
fits into an IPv4 packet, and it is a fragment if it has a Fragment header. -/
structure Answerable (data : List UInt8) : Prop where
  notMulticast : ¬ IsMulticast4 (Ipv6hdr.load data ethHlen).saddr.w3
  notBroadcast : ¬ IsLimitedBroadcast (Ipv6hdr.load data ethHlen).saddr.w3
  fits : l4Length6 data ≤ 65515
  fragment : (Ipv6hdr.load data ethHlen).nexthdr = ipprotoFragment →
    (FragHdr.load data (ethHlen + ip6Hlen)).more = true ∨
      (FragHdr.load data (ethHlen + ip6Hlen)).offset ≠ 0

section Header

variable {data : List UInt8} {v : IngressVars} {totLen : UInt16}

/-- The header of the answer to a packet with the local variables `v` in `clat_ingress`. -/
def IngressVars.answer (k : Kernel) (c : Constants) (v : IngressVars) : Iphdr :=
  (v.h4 k c v.totLen).swap

theorem answer_fragOff (k : Kernel) (c : Constants) (v : IngressVars) :
    bpfNtohs (v.answer k c).fragOff = v.frag4 := bswap16_bswap16 _

theorem answer_headerLength (k : Kernel) (c : Constants) (v : IngressVars) :
    (v.answer k c).headerLength = ip4Hlen := rfl

theorem answer_length (hv : ReadAs c data v) (ha : Answerable data) :
    (v.answer k c).length = v.payloadLen + ip4Hlen := by
  have hfits := ha.fits
  rw [← hv.payloadLen] at hfits
  show (bswap16 (bswap16 (UInt16.ofNat (v.payloadLen + 20)))).toNat = v.payloadLen + 20
  rw [bswap16_bswap16, UInt16.toNat_ofNat', Nat.mod_eq_of_lt (by omega)]

theorem answer_offset (hv : ReadAs c data v) : (v.answer k c).offset = offset6 data := by
  rw [Iphdr.offset, answer_fragOff, hv.frag4_offset]

/-- The answer is a fragment exactly if the packet is one. -/
theorem answer_isFragment (hv : ReadAs c data v) (ha : Answerable data) :
    (v.answer k c).IsFragment ↔ (Ipv6hdr.load data ethHlen).nexthdr = ipprotoFragment := by
  rw [Iphdr.IsFragment, Iphdr.more, Iphdr.offset, answer_fragOff]
  by_cases hnh : (Ipv6hdr.load data ethHlen).nexthdr = ipprotoFragment
  · refine iff_of_true ?_ hnh
    rw [(hv.frag hnh).2, frag4Of_more, frag4Of_offset]
    exact ha.fragment hnh
  · refine iff_of_false ?_ hnh
    rw [(hv.plain hnh).2]
    decide

theorem answer_isFrag (hv : ReadAs c data v) (ha : Answerable data) :
    (egressVars (v.answer k c)).isFrag = v.isFrag := by
  rw [Bool.eq_iff_iff, egressVars_isFrag, answer_isFragment hv ha, hv.isFrag]

/-- The protocol goes to IPv4 and back. -/
theorem answer_nh6 (hicmp : v.nh ≠ ipprotoIcmp) : (egressVars (v.answer k c)).nh6 = v.nh := by
  show (if v.proto4 = ipprotoIcmp then ipprotoIcmpv6 else v.proto4) = v.nh
  rw [IngressVars.proto4]
  by_cases hnh : v.nh = ipprotoIcmpv6
  · rw [if_pos hnh, if_pos rfl, hnh]
  · rw [if_neg hnh, if_neg hicmp]

theorem answer_accepted (hv : ReadAs c data v) (ha : Answerable data)
    (hmapped : v.srcMapped = true) (hicmp : v.nh ≠ ipprotoIcmp) :
    HeaderAccepted c (v.answer k c) where
  version := rfl
  ihl := le_refl _
  saddr := rfl
  notMcast := by
    have hdaddr : (v.answer k c).daddr = (Ipv6hdr.load data ethHlen).saddr.w3 := by
      show (if v.srcMapped then v.saddr6.w3 else c.errIp4) = _
      rw [hmapped, if_pos rfl, hv.saddr6]
    rw [hdaddr]
    exact isMcast_eq_false_of_not ha.notMulticast ha.notBroadcast
  totLen := by
    have hlength := answer_length (k := k) hv ha
    rw [Iphdr.length] at hlength
    rw [hlength, egressVars_ihl, answer_headerLength]
    exact Nat.le_add_left _ _
  notFragIcmp := by
    rintro ⟨hfrag, hproto⟩
    rw [answer_isFrag hv ha] at hfrag
    refine hv.notFragIcmp ⟨?_, hfrag⟩
    by_contra hnh
    exact hicmp ((if_neg hnh).symm.trans hproto)

/-- **The packet is a reply to its answer**, as far as the local variables of the programs go. -/
theorem answer_returns (hv : ReadAs c data v) (ha : Answerable data)
    (hsrc : inPrefix c (Ipv6hdr.load data ethHlen).saddr = true)
    (hdst : (Ipv6hdr.load data ethHlen).daddr = c.podIp6) (hicmp : v.nh ≠ ipprotoIcmp) :
    Returns c (egressVars (v.answer k c)) v where
  saddr6 := by
    have hmapped := hv.srcMapped.trans hsrc
    show v.saddr6 =
      { prefixCopy c.clatPrefix with w3 := if v.srcMapped then v.saddr6.w3 else c.errIp4 }
    rw [hmapped, if_pos rfl, prefixCopy_eq, hv.saddr6]
    exact inPrefix_iff.mp hsrc
  daddr6 := by
    show v.daddr6 = prefixCopy c.podIp6
    rw [hv.daddr6, hdst, prefixCopy_eq]
  srcMapped := hv.srcMapped.trans hsrc
  nh := (answer_nh6 hicmp).symm
  first := by
    rw [Bool.eq_iff_iff, hv.first, egressVars_first, answer_offset hv]
  payloadLen := by
    rw [egressVars_l4len, answer_length hv ha, answer_headerLength, Nat.add_sub_cancel]

end Header

/-! ## Its transport bytes -/

section Payload

variable {p : Iphdr} {w : IngressVars} {st st' : IpSummed} {l4 : List UInt8} {x : IngressOut}

/-- The transport bytes `l4`, through `clat_ingress` with the local variables `w` and then through
`clat_egress` as the payload of a packet with the header `p`. -/
def PayloadComesBack (k : Kernel) (c : Constants) (st' : IpSummed) (p : Iphdr) (w : IngressVars)
    (l4 : List UInt8) (x : IngressOut) : Prop :=
  ∃ mid out, x = sameLength w mid ∧ egressPayload k c st' (egressVars p) mid = .ok out ∧
    SameTransport p l4 out

theorem answer_later_fragment (hw : Returns c (egressVars p) w) (hoff : p.offset ≠ 0)
    (h : ingressPayload k c st w l4 = .ok x) : PayloadComesBack k c st' p w l4 x := by
  have hfirst : ¬ (egressVars p).first = true := egressVars_first.not.mpr hoff
  rw [ingressPayload, hw.first, if_neg hfirst] at h
  cases h
  refine ⟨l4, l4, rfl, ?_, SameExcept.refl _ _, fun hzero => absurd hzero hoff⟩
  rw [egressPayload, if_neg hfirst]

/-- TCP, and UDP with a checksum: the two differences cancel. -/
theorem answer_checksum (hk : k.Lawful) (hsrc : p.saddr = c.podIp4)
    (hw : Returns c (egressVars p) w) (hsign : st'.sign = st.sign) (hoff : p.offset = 0)
    (hkind : HasChecksum p.protocol l4) (h : ingressPayload k c st w l4 = .ok x) :
    PayloadComesBack k c st' p w l4 x := by
  have hfirst : w.first = true := hw.first.trans (egressVars_first.mpr hoff)
  have hnh : w.nh = p.protocol := hw.nh.trans (if_neg hkind.ne_icmp.1)
  have hkind' : HasChecksum w.nh l4 := by
    rw [hnh]
    exact hkind
  obtain ⟨hlen, rfl⟩ := (ingressPayload_checksum hfirst hkind').mp h
  rw [hnh] at hlen ⊢
  generalize hd : ingressDiff k c w = d
  have hback := cast_ingressDiff_return hk hsrc hw
  rw [hd] at hback
  have hkept := hkind.update hlen st d
  have hlen' : csumOffset p.protocol + 2 ≤ (updateTransport st p.protocol d l4).length := by
    rwa [length_updateTransport hlen]
  refine ⟨_, _, rfl, (egressPayload_checksum hoff hkept).mpr ⟨hlen', rfl⟩,
    sameTransport_of_cast rfl hoff ((updateCsum_sameExcept hlen fun j hj => hj).trans
      (updateCsum_sameExcept hlen' fun j hj => hj)) ?_⟩
  rw [cast_load16_updateTransport hkept hlen', cast_load16_updateTransport hkind hlen, hsign, hback]
  ring

/-- The ICMP types come back. -/
theorem egressIcmpType_echoType4 {t6 : UInt8} (h : IsEcho6 t6) :
    egressIcmpType (echoType4 t6) = .ok t6 := by
  rcases h with rfl | rfl
  · rfl
  · rfl

/-- An echo. -/
theorem answer_icmp (hk : k.Lawful) (hw : Returns c (egressVars p) w)
    (hnh6 : ((egressVars p).h6 c).nexthdr = ipprotoIcmpv6) (hsign : st'.sign = st.sign)
    (hoff : p.offset = 0) (hproto : p.protocol = ipprotoIcmp) (hecho : IsEcho6 (load8 l4 0))
    (h : ingressPayload k c st w l4 = .ok x) : PayloadComesBack k c st' p w l4 x := by
  rw [hw.ingressPayload_icmp hoff hproto, ingressIcmpBytes_eq_ok] at h
  obtain ⟨hlen, ⟨-, rfl⟩ | ⟨hno, -⟩⟩ := h
  swap
  · exact absurd hecho hno
  have hlen' : 4 ≤ l4.length := by omega
  generalize hd : ingressEchoDiff k w (load8 l4 0) (load8 l4 1) = d
  have hback := cast_ingressEchoDiff_return hk hw hnh6 (rfl : echoType4 (load8 l4 0) = _)
    (load8 l4 1)
  rw [hd] at hback
  refine ⟨_, _, rfl, ?_, sameTransport_of_types hproto hoff hlen' hsign (echoType4 (load8 l4 0))
    (neg_eq_iff_eq_neg.mpr hback).symm⟩
  rw [egressPayload_icmp hoff hproto, egressIcmpBytes_eq_ok, load8_updateCsum_type hlen',
    load8_updateCsum_code hlen', length_updateCsum_type hlen']
  exact ⟨hlen', load8 l4 0, egressIcmpType_echoType4 hecho, rfl⟩

/-- Ingress has a checksum where there is one to see. -/
theorem hasChecksum_of_ingressPayload (hfirst : w.first = true)
    (hnh : w.nh = ipprotoTcp ∨ w.nh = ipprotoUdp) (h : ingressPayload k c st w l4 = .ok x) :
    HasChecksum w.nh l4 := by
  rcases hnh with htcp | hudp
  · exact Or.inl htcp
  · refine Or.inr ⟨hudp, ?_⟩
    rw [ingressPayload, if_pos hfirst, ingressL4Bytes, hudp, if_neg (by decide), if_pos rfl,
      bind_eq_ok] at h
    obtain ⟨_, hl4, -⟩ := h
    exact (ingressUdpBytes_eq_ok.mp hl4).2.1

end Payload

/-- TCP, UDP, or an ICMPv6 echo. -/
def Conversation (data : List UInt8) : Prop :=
  (transport6 data = ipprotoTcp ∨ transport6 data = ipprotoUdp ∨ transport6 data = ipprotoIcmpv6) ∧
    ¬ IsIcmp6Error data

instance (data : List UInt8) : Decidable (Conversation data) :=
  inferInstanceAs (Decidable (_ ∧ _))

theorem Conversation.ne_icmp {data : List UInt8} {v : IngressVars} (h : Conversation data)
    (hv : ReadAs c data v) : v.nh ≠ ipprotoIcmp := by
  rw [hv.nh]
  rcases h.1 with hnh | hnh | hnh
  · rw [hnh]
    decide
  · rw [hnh]
    decide
  · rw [hnh]
    decide

section Frame

variable {data : List UInt8} {v : IngressVars} {st st' : IpSummed} {x : IngressOut}

/-- **The transport bytes come back.** -/
theorem payloadComesBack_answer (hk : k.Lawful) (hv : ReadAs c data v) (ha : Answerable data)
    (hconv : Conversation data) (hw : Returns c (egressVars (v.answer k c)) v)
    (hsign : st'.sign = st.sign) (h : ingressPayload k c st v (v.l4 data) = .ok x) :
    PayloadComesBack k c st' (v.answer k c) v (v.l4 data) x := by
  have hproto : (v.answer k c).protocol = v.proto4 := rfl
  by_cases hoff : (v.answer k c).offset = 0
  swap
  · exact answer_later_fragment hw hoff h
  have hfirst : v.first = true := hw.first.trans (egressVars_first.mpr hoff)
  by_cases hicmp : v.nh = ipprotoIcmpv6
  · have hplain : ¬ (egressVars (v.answer k c)).isFrag = true := by
      rw [answer_isFrag hv ha]
      exact fun hfrag => hv.notFragIcmp ⟨hicmp, hfrag⟩
    have hnh6 : ((egressVars (v.answer k c)).h6 c).nexthdr = ipprotoIcmpv6 :=
      (if_neg hplain).trans (hw.nh.symm.trans hicmp)
    have hecho : IsEcho6 (load8 (v.l4 data) 0) := by
      by_contra hno
      exact hconv.2 (hv.isError_iff.mp ⟨hfirst, hicmp, hno⟩)
    exact answer_icmp hk hw hnh6 hsign hoff (if_pos hicmp) hecho h
  · have hnh : v.nh = ipprotoTcp ∨ v.nh = ipprotoUdp := by
      rw [hv.nh] at hicmp ⊢
      exact hconv.1.imp_right fun hrest => hrest.resolve_right hicmp
    refine answer_checksum hk rfl hw hsign hoff ?_ h
    rw [hproto, IngressVars.proto4, if_neg hicmp]
    exact hasChecksum_of_ingressPayload hfirst hnh h

/-- The frame that leaves: new headers, and behind them the transport bytes. -/
def answerFrame (k : Kernel) (c : Constants) (v : IngressVars) (data out : List UInt8) :
    List UInt8 :=
  (data.take 12 ++ le16Bytes (bpfHtons ethPIpv6)) ++
    (((egressVars (v.answer k c)).h6 c).bytes ++ ((egressVars (v.answer k c)).fragBytes ++ out))

/-- The frame of the answer, and what `clat_egress` makes of it. -/
theorem egressFrame_answer (hlen : 12 ≤ data.length) (hacc : HeaderAccepted c (v.answer k c))
    {mid out : List UInt8}
    (h : egressPayload k c st' (egressVars (v.answer k c)) mid = .ok out) :
    HasEtherType (swapAddresses4 (ingressHeaders k c v data v.totLen ++ mid)) ethPIp ∧
      egressFrame k c st' (swapAddresses4 (ingressHeaders k c v data v.totLen ++ mid)) =
        .ok (answerFrame k c v data out) := by
  have hhd := length_macHeader hlen (bpfHtons ethPIp)
  have hmacs : (data.take 12).length = 12 := by
    rw [List.length_take]
    omega
  have hframe : swapAddresses4 (ingressHeaders k c v data v.totLen ++ mid) =
      (data.take 12 ++ le16Bytes (bpfHtons ethPIp)) ++ ((v.answer k c).bytes ++ mid) := by
    rw [IngressVars.answer, ← swapAddresses4_append hhd, ingressHeaders]
    simp only [List.append_assoc]
  have hload : Iphdr.load ((data.take 12 ++ le16Bytes (bpfHtons ethPIp)) ++
      ((v.answer k c).bytes ++ mid)) ethHlen = v.answer k c := Iphdr.load_append_bytes hhd _ _
  have hihl : (egressVars (v.answer k c)).ihl = ip4Hlen := rfl
  have hlength : ((data.take 12 ++ le16Bytes (bpfHtons ethPIp)) ++
      ((v.answer k c).bytes ++ mid)).length = ethHlen + ip4Hlen + mid.length := by
    rw [List.length_append, hhd, List.length_append, Iphdr.length_bytes, Nat.add_assoc]
  have hpay : payload4 ((data.take 12 ++ le16Bytes (bpfHtons ethPIp)) ++
      ((v.answer k c).bytes ++ mid)) = mid := by
    rw [payload4, hload, hihl, drop_append_add hhd, List.drop_left' (Iphdr.length_bytes _)]
  have htake : ((data.take 12 ++ le16Bytes (bpfHtons ethPIp)) ++
      ((v.answer k c).bytes ++ mid)).take 12 = data.take 12 := by
    rw [List.append_assoc, List.take_left' hmacs]
  rw [hframe]
  constructor
  · rw [List.append_assoc]
    exact hasEtherType_take_append data hlen
  · rw [egressFrame_eq_ok, hload, hpay, hlength, hihl, Nat.sub_self]
    refine ⟨Nat.le_add_right _ _, hacc, Or.inl rfl, Nat.le_add_right _ _, out, h, ?_⟩
    rw [egressHeaders, htake]
    simp only [answerFrame, List.append_assoc]

end Frame

/-! ## The answer leaves -/

/-- The frame `out` is the IPv6 frame `data` with source and destination exchanged: nothing is lost
but the flow label, the upper half of the identification and the reserved bits of a Fragment header,
and nothing changes behind the headers but the checksum, within its class. -/
structure Answered (data out : List UInt8) : Prop where
  macs : out.take 12 = data.take 12
  etherType : HasEtherType out ethPIpv6
  length : out.length = data.length
  version : (Ipv6hdr.load out ethHlen).version = 6
  trafficClass : (Ipv6hdr.load out ethHlen).trafficClass = (Ipv6hdr.load data ethHlen).trafficClass
  flowLabel : (Ipv6hdr.load out ethHlen).flowLabel = 0
  payloadLength : (Ipv6hdr.load out ethHlen).length = (Ipv6hdr.load data ethHlen).length
  nexthdr : (Ipv6hdr.load out ethHlen).nexthdr = (Ipv6hdr.load data ethHlen).nexthdr
  hopLimit : (Ipv6hdr.load out ethHlen).hopLimit = (Ipv6hdr.load data ethHlen).hopLimit
  saddr : (Ipv6hdr.load out ethHlen).saddr = (Ipv6hdr.load data ethHlen).daddr
  daddr : (Ipv6hdr.load out ethHlen).daddr = (Ipv6hdr.load data ethHlen).saddr
  fragment : (Ipv6hdr.load data ethHlen).nexthdr = ipprotoFragment →
    let fh := FragHdr.load data (ethHlen + ip6Hlen)
    let fh' := FragHdr.load out (ethHlen + ip6Hlen)
    fh'.nexthdr = fh.nexthdr ∧ fh'.offset = fh.offset ∧ fh'.more = fh.more ∧
      fh'.ident = fh.ident % 65536
  bytes : SameExcept (fun i => offset6 data = 0 ∧ ChecksumField (transport6 data) i) (payload6 data)
    (payload6 out)
  checksum : offset6 data = 0 →
    (bpfNtohs (load16 (payload6 out) (csumOffset (transport6 data)))).toNat ≡
      (bpfNtohs (load16 (payload6 data) (csumOffset (transport6 data)))).toNat [MOD 65535]

/-- The checksum of ICMP is where that of ICMPv6 is. -/
theorem csumOffset_proto4 (v : IngressVars) : csumOffset v.proto4 = csumOffset v.nh := by
  rw [IngressVars.proto4]
  split
  · next hnh =>
    rw [hnh]
    rfl
  · rfl

section Leaves

variable {data out : List UInt8} {v : IngressVars}

theorem ipv6hdr_load_answerFrame (hlen : 12 ≤ data.length) :
    Ipv6hdr.load (answerFrame k c v data out) ethHlen = (egressVars (v.answer k c)).h6 c :=
  Ipv6hdr.load_append_bytes (length_macHeader hlen _) _ _

theorem answer_h6_nexthdr (hv : ReadAs c data v) (ha : Answerable data)
    (hw : Returns c (egressVars (v.answer k c)) v) :
    ((egressVars (v.answer k c)).h6 c).nexthdr = (Ipv6hdr.load data ethHlen).nexthdr := by
  show (if (egressVars (v.answer k c)).isFrag then ipprotoFragment
    else (egressVars (v.answer k c)).nh6) = _
  rw [answer_isFrag hv ha, ← hw.nh]
  by_cases hnh : (Ipv6hdr.load data ethHlen).nexthdr = ipprotoFragment
  · rw [if_pos (hv.isFrag.mpr hnh), hnh]
  · rw [if_neg (hv.isFrag.not.mpr hnh), hv.nh, transport6, if_neg hnh]

/-- The answer has a Fragment header where the packet had one. -/
theorem answer_fragHlen (hv : ReadAs c data v) (ha : Answerable data) :
    (if (Ipv6hdr.load data ethHlen).nexthdr = ipprotoFragment then fragHlen else 0) =
      if (egressVars (v.answer k c)).isFrag then fragHlen else 0 := by
  refine if_congr ?_ rfl rfl
  rw [answer_isFrag hv ha, hv.isFrag]

theorem payload6_answerFrame (hlen : 12 ≤ data.length) (hv : ReadAs c data v)
    (ha : Answerable data) (hw : Returns c (egressVars (v.answer k c)) v) :
    payload6 (answerFrame k c v data out) = out := by
  rw [payload6, ipv6hdr_load_answerFrame hlen, answer_h6_nexthdr hv ha hw,
    answer_fragHlen (k := k) hv ha]
  exact drop_append_headers (length_macHeader hlen _) _ _ out

theorem length_answerFrame (hlen : ethHlen + ip6Hlen + fragHlen ≤ data.length)
    (hv : ReadAs c data v) (ha : Answerable data) (hout : out.length = (payload6 data).length) :
    (answerFrame k c v data out).length = data.length := by
  rw [payload6, List.length_drop, answer_fragHlen (k := k) hv ha] at hout
  rw [answerFrame, length_append_headers (length_macHeader (le_trans (by decide) hlen) _), hout]
  split <;> omega

theorem answer_h6_length (hv : ReadAs c data v) (ha : Answerable data)
    (hacc : HeaderAccepted c (v.answer k c))
    (hfits : (Ipv6hdr.load data ethHlen).nexthdr = ipprotoFragment →
      fragHlen ≤ (Ipv6hdr.load data ethHlen).length) :
    ((egressVars (v.answer k c)).h6 c).length = (Ipv6hdr.load data ethHlen).length := by
  rw [h6_length hacc, answer_length hv ha, answer_headerLength, Nat.add_sub_cancel,
    hv.payloadLen, l4Length6, if_congr (answer_isFragment hv ha) rfl rfl]
  split
  · next hnh => exact Nat.sub_add_cancel (hfits hnh)
  · rfl

/-- The Fragment header of the answer. -/
theorem answer_fh (hv : ReadAs c data v) (hw : Returns c (egressVars (v.answer k c)) v)
    (hnh : (Ipv6hdr.load data ethHlen).nexthdr = ipprotoFragment) :
    (egressVars (v.answer k c)).fh.nexthdr = (FragHdr.load data (ethHlen + ip6Hlen)).nexthdr ∧
      (egressVars (v.answer k c)).fh.offset = (FragHdr.load data (ethHlen + ip6Hlen)).offset ∧
      (egressVars (v.answer k c)).fh.more = (FragHdr.load data (ethHlen + ip6Hlen)).more ∧
      (egressVars (v.answer k c)).fh.ident =
        (FragHdr.load data (ethHlen + ip6Hlen)).ident % 65536 := by
  obtain ⟨hid, hfrag4⟩ := hv.frag hnh
  refine ⟨?_, ?_, ?_, ?_⟩
  · show (egressVars (v.answer k c)).nh6 = _
    rw [← hw.nh, hv.nh, transport6, if_pos hnh]
  · rw [fh_offset, answer_offset hv, offset6, if_pos hnh]
  · rw [fh_more, Iphdr.more, answer_fragOff, hfrag4, frag4Of_more]
    rfl
  · have hident : bpfNtohs (v.answer k c).id = v.id := bswap16_bswap16 _
    rw [fh_ident, Iphdr.ident, hident, hid, UInt32.toNat_toUInt16]
    rfl

/-- **The answer as a frame.** -/
theorem answered_answerFrame (hlen : ethHlen + ip6Hlen + fragHlen ≤ data.length)
    (hv : ReadAs c data v) (ha : Answerable data) (hacc : HeaderAccepted c (v.answer k c))
    (hw : Returns c (egressVars (v.answer k c)) v)
    (hfits : (Ipv6hdr.load data ethHlen).nexthdr = ipprotoFragment →
      fragHlen ≤ (Ipv6hdr.load data ethHlen).length)
    (hsame : SameTransport (v.answer k c) (payload6 data) out) :
    Answered data (answerFrame k c v data out) := by
  have hmac : 12 ≤ data.length := le_trans (by decide) hlen
  have hmacs : (data.take 12).length = 12 := by
    rw [List.length_take]
    omega
  have hload : Ipv6hdr.load (answerFrame k c v data out) ethHlen =
      (egressVars (v.answer k c)).h6 c := ipv6hdr_load_answerFrame hmac
  have hpay : payload6 (answerFrame k c v data out) = out := payload6_answerFrame hmac hv ha hw
  have hheader := ip6HeaderOf_egressVars hacc
  have hoffset := csumOffset_proto4 v
  rw [hv.nh] at hoffset
  have hproto : csumOffset (v.answer k c).protocol = csumOffset (transport6 data) := hoffset
  refine ⟨?_, ?_, ?_, ?_, ?_, ?_, ?_, ?_, ?_, ?_, ?_, fun hnh => ?_, ?_, fun hoff => ?_⟩
  · rw [answerFrame, List.append_assoc, List.take_left' hmacs]
  · rw [answerFrame, List.append_assoc]
    exact hasEtherType_take_append data hmac
  · exact length_answerFrame hlen hv ha hsame.bytes.1
  · rw [hload, hheader.version]
  · rw [hload, hheader.trafficClass]
    exact hv.tos
  · rw [hload, hheader.flowLabel]
  · rw [hload, answer_h6_length hv ha hacc hfits]
  · rw [hload, answer_h6_nexthdr hv ha hw]
  · rw [hload, hheader.hopLimit]
    exact hv.hop
  · rw [hload, ← hw.daddr6, hv.daddr6]
  · rw [hload, ← hw.saddr6, hv.saddr6]
  · have hfrag : (egressVars (v.answer k c)).isFrag = true := by
      rw [answer_isFrag hv ha]
      exact hv.isFrag.mpr hnh
    have hfh : FragHdr.load (answerFrame k c v data out) (ethHlen + ip6Hlen) =
        (egressVars (v.answer k c)).fh :=
      fragHdr_load_append_headers (length_macHeader hmac _) _ hfrag out
    dsimp only
    rw [hfh]
    exact answer_fh hv hw hnh
  · rw [hpay]
    refine hsame.bytes.mono fun i hi => ?_
    rw [answer_offset hv, ChecksumField, hproto] at hi
    exact hi
  · have hback := hsame.checksum ((answer_offset hv).trans hoff)
    rw [hproto] at hback
    rw [hpay]
    exact hback

end Leaves

/-- A conversation with the pod is not an ICMPv6 error, so it comes from the prefix. -/
theorem Conversation.inPrefix {data : List UInt8} (h : Conversation data)
    (hret : ReturnTraffic c data) : inPrefix c (Ipv6hdr.load data ethHlen).saddr = true := by
  obtain ⟨-, -, -, -, hmapped | ⟨hnh, -, -, hle, -⟩⟩ := hret
  · exact hmapped
  · exact absurd ⟨hnh, fun hecho => hecho.not_le hle⟩ h.2

/-- **Back and there.**  Whatever `clat_ingress` hands to the pod of a TCP or UDP conversation or an
echo, fragments included, the pod can answer: with the addresses exchanged, the packet goes out
through `clat_egress` as the IPv6 packet that came, from the address it was sent to and to the
address it was sent from. -/
theorem answer_round_trip (hk : k.Lawful) (h : IngressTranslates k c s)
    (ha : Answerable s.skb.data) (hconv : Conversation s.skb.data) {r : State}
    (hr : r.skb.data = swapAddresses4 (clatIngress k c s).2.skb.data)
    (hst : r.skb.ipSummed = .checksumPartial ↔ s.skb.ipSummed = .checksumPartial)
    (hn : NoFault k r ethPIp) :
    (clatEgress k c r).1 = .ok ∧ Answered s.skb.data (clatEgress k c r).2.skb.data := by
  obtain ⟨hret, hlen, out, present, hout, hdata⟩ := h.out hk
  obtain ⟨v, x, hvars, hx, rfl⟩ := ingressFrame_eq_ok.mp hout
  have hv := ingressVars_readAs hvars
  have hsrc := hconv.inPrefix hret
  have hicmp := hconv.ne_icmp hv
  have hacc := answer_accepted (k := k) hv ha (hv.srcMapped.trans hsrc) hicmp
  have hw := answer_returns (k := k) hv ha hsrc hret.2.2.2.1 hicmp
  have hmac : 12 ≤ s.skb.data.length := le_trans (by decide) hlen
  -- the transport bytes, there and back
  obtain ⟨mid, l4, rfl, hegress, hsame⟩ :=
    payloadComesBack_answer hk hv ha hconv hw (IpSummed.sign_eq hst) hx
  rw [hv.l4] at hsame
  obtain ⟨htype, hframe⟩ := egressFrame_answer hmac hacc hegress
  have hmid : r.skb.data = swapAddresses4 (ingressHeaders k c v s.skb.data v.totLen ++ mid) :=
    hr.trans (congrArg swapAddresses4 hdata)
  rw [← hmid] at htype hframe
  obtain ⟨hok, hbytes⟩ := clatEgress_of_frame hk hn htype hframe
  have hfits : (Ipv6hdr.load s.skb.data ethHlen).nexthdr = ipprotoFragment →
      fragHlen ≤ (Ipv6hdr.load s.skb.data ethHlen).length := by
    intro hnh
    obtain ⟨-, -, ⟨hne, -⟩ | ⟨-, -, hpay, -⟩⟩ := ingressVars_eq_ok.mp hvars
    · exact absurd hnh hne
    · exact hpay
  refine ⟨hok, ?_⟩
  rw [hbytes]
  exact answered_answerFrame hlen hv ha hacc hw hfits hsame

/-- The first fragment of a TCP segment, back and there. -/
theorem answer_round_trip_fragment :
    let s := testState (testFrame6 44 testPeer6
      ([6, 0, 0, 1, 0, 1, 0x12, 0x34] ++ (List.range 24 |>.map UInt8.ofNat))) ethPIpv6
    let r := testState (swapAddresses4 (clatIngress .reference testConstants s).2.skb.data) ethPIp
    IngressTranslates .reference testConstants s ∧ NoFault .reference r ethPIp ∧
      (clatEgress .reference testConstants r).1 = .ok ∧
      Answered s.skb.data (clatEgress .reference testConstants r).2.skb.data := by
  intro s r
  have h : IngressTranslates .reference testConstants s := by decide +kernel
  have hn : NoFault .reference r ethPIp := ⟨Kernel.reference_reliable, rfl⟩
  have ha : Answerable s.skb.data :=
    ⟨by decide +kernel, by decide +kernel, by decide +kernel, by decide +kernel⟩
  have hconv : Conversation s.skb.data := by decide +kernel
  have hs : s.skb.ipSummed = .checksumNone := rfl
  have hr : r.skb.ipSummed = .checksumNone := rfl
  have hst : r.skb.ipSummed = .checksumPartial ↔ s.skb.ipSummed = .checksumPartial := by
    rw [hr, hs]
  exact ⟨h, hn, answer_round_trip Kernel.reference_lawful h ha hconv rfl hst hn⟩

end CiliumClat
