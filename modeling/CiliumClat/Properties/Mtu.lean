import CiliumClat.Properties.Quotes
import CiliumClat.Plugin.Netns

/-!
# How long packets become

Egress makes a packet longer by the difference between the two headers, and a fragment by a Fragment
header on top; options go.  Two places allow for that.

* The plugin gives the IPv4 default route an MTU of 20 less than that of the link (`routeMTU`).
  That is the growth of a packet that is no fragment, and 8 bytes too little for a fragment.
* The datapath takes 20 off the MTU in a Packet Too Big, and 28 if the packet quoted there has a
  Fragment header (`mtu4`).

So path-MTU discovery ends for whole packets and for fragments alike, but a packet that fits the
default route fits the link only if it is whole, or leaves some room.
-/

namespace CiliumClat

open ByteList Plugin

variable {k : Kernel} {c : Constants} {s : State}

/-! ## Growth -/

/-- The length of the packet in an IPv6 frame, by its header. -/
def packetLength6 (data : List UInt8) : ℕ :=
  ip6Hlen + (Ipv6hdr.load data ethHlen).length

/-- **The growth of a packet**: 40 bytes for the header that is cut off, and eight for a
fragment. -/
theorem EgressTranslates.packetLength6_eq (hk : k.Lawful) (h : EgressTranslates k c s) :
    packetLength6 (clatEgress k c s).2.skb.data + (Iphdr.load s.skb.data ethHlen).headerLength =
      (Iphdr.load s.skb.data ethHlen).length + ip6Hlen +
        if (Iphdr.load s.skb.data ethHlen).IsFragment then fragHlen else 0 := by
  obtain ⟨hacc, hload, -⟩ := h.parts hk
  have hgrow := (ip6HeaderOf_egressVars hacc).length
  rw [packetLength6, hload]
  omega

/-- The header of a packet that egress translates has at least its fixed part. -/
theorem EgressTranslates.headerLength_ge (hk : k.Lawful) (h : EgressTranslates k c s) :
    ip4Hlen ≤ (Iphdr.load s.skb.data ethHlen).headerLength := by
  obtain ⟨hacc, -⟩ := h.parts hk
  have hihl := hacc.ihl
  rwa [egressVars_ihl] at hihl

/-! ## The MTU of the default route -/

/-- **The route MTU leaves room for the header and not for a Fragment header.**  A packet that fits
the default route of a link fits the link exactly if it is whole, or by eight bytes shorter than the
route allows, its options counted in. -/
theorem route_mtu_fits_iff (hk : k.Lawful) (h : EgressTranslates k c s) {m : ℤ}
    (hroute : ((Iphdr.load s.skb.data ethHlen).length : ℤ) ≤ routeMTU m) :
    ((packetLength6 (clatEgress k c s).2.skb.data : ℤ) ≤ m ↔
      ((Iphdr.load s.skb.data ethHlen).IsFragment →
        ((Iphdr.load s.skb.data ethHlen).length : ℤ) + fragHlen ≤
          routeMTU m + ((Iphdr.load s.skb.data ethHlen).headerLength - ip4Hlen))) ∧
    (LengthConsistent4 s.skb.data → (clatEgress k c s).2.skb.data.length =
      ethHlen + packetLength6 (clatEgress k c s).2.skb.data) := by
  have hgrow := h.packetLength6_eq hk
  have hge := h.headerLength_ge hk
  refine ⟨?_, fun hlen => ?_⟩
  · rw [routeMTU, ipv4HeaderOverhead] at hroute ⊢
    by_cases hfrag : (Iphdr.load s.skb.data ethHlen).IsFragment
    · rw [if_pos hfrag] at hgrow
      rw [imp_iff_right hfrag]
      simp only [ip6Hlen, ip4Hlen, fragHlen] at hgrow hge ⊢
      omega
    · rw [if_neg hfrag] at hgrow
      refine iff_of_true ?_ fun hf => absurd hf hfrag
      simp only [ip6Hlen, ip4Hlen] at hgrow hge ⊢
      omega
  · have hout := (egressFrame_exact (h.out hk)).lengthConsistent hlen
    rw [← hout, packetLength6, ← Nat.add_assoc]

/-- A whole packet of the pod on a link with an MTU of 1280. -/
theorem route_mtu_fits_iff_whole :
    let s := testState (testFrame4 0 6 (List.replicate 20 0)) ethPIp
    EgressTranslates .reference testConstants s ∧
      ((Iphdr.load s.skb.data ethHlen).length : ℤ) ≤ routeMTU 1280 ∧
      (packetLength6 (clatEgress .reference testConstants s).2.skb.data : ℤ) ≤ 1280 ∧
      (clatEgress .reference testConstants s).2.skb.data.length =
        ethHlen + packetLength6 (clatEgress .reference testConstants s).2.skb.data := by
  intro s
  have htr : EgressTranslates .reference testConstants s := by decide +kernel
  have hroute : ((Iphdr.load s.skb.data ethHlen).length : ℤ) ≤ routeMTU 1280 := by decide +kernel
  have hfrag : ¬ (Iphdr.load s.skb.data ethHlen).IsFragment := by decide +kernel
  have hlen : LengthConsistent4 s.skb.data := by decide +kernel
  obtain ⟨hfits, hbytes⟩ := route_mtu_fits_iff Kernel.reference_lawful htr hroute
  exact ⟨htr, hroute, hfits.mpr fun hf => absurd hf hfrag, hbytes hlen⟩

/-- A fragment of a UDP datagram that fills the default route of a link with an MTU of 1280, in
1260 bytes, becomes an IPv6 packet of 1288 bytes. -/
theorem route_mtu_exceeded :
    let s := testState (testFrame4 0x2001 17 (List.replicate 1240 0)) ethPIp
    EgressTranslates .reference testConstants s ∧ LengthConsistent4 s.skb.data ∧
      ((Iphdr.load s.skb.data ethHlen).length : ℤ) = routeMTU 1280 ∧
      packetLength6 (clatEgress .reference testConstants s).2.skb.data = 1288 ∧
      (clatEgress .reference testConstants s).2.skb.data.length = ethHlen + 1288 := by
  intro s
  refine ⟨⟨by decide +kernel, by decide +kernel⟩, ?_, ?_, ?_, ?_⟩
  · decide +kernel
  · decide +kernel
  · decide +kernel
  · decide +kernel

/-! ## Packet Too Big -/

/-- The frame `e` is a Packet Too Big with the MTU `m`, about a packet with the next header of the
packet in the frame `q`.  That is all of the quote that matters here. -/
structure TooBigAbout (q e : List UInt8) (m : ℕ) : Prop where
  nexthdr : (Ipv6hdr.load e ethHlen).nexthdr = ipprotoIcmpv6
  type : load8 e (ethHlen + ip6Hlen) = 2
  mtu : (bpfNtohl (load32 e (ethHlen + ip6Hlen + 4))).toNat = m
  quote : (Ipv6hdr.load (quotedFrame e) ethHlen).nexthdr = (Ipv6hdr.load q ethHlen).nexthdr

/-- The MTU in an ICMPv4 error. -/
def icmpMtu (out : List UInt8) : ℕ :=
  (bpfNtohs (load16 out (ethHlen + ip4Hlen + 6))).toNat

/-- The growth that the translation of a Packet Too Big allows for. -/
def growth (inFrag : Bool) : ℕ :=
  ip6Hlen - ip4Hlen + if inFrag then fragHlen else 0

/-- An MTU that IPv6 allows loses the growth, and what is left fits into the field. -/
theorem mtu4_eq {m : ℕ} (hm : 1280 ≤ m) (inFrag : Bool) :
    mtu4 m inFrag = min m 65535 - growth inFrag := by
  have hgrowth : growth inFrag ≤ 28 := by cases inFrag <;> decide
  have hclamp : (if m > 0xffff then 0xffff else m) = min m 65535 := by
    split <;> omega
  show (if (if m > 0xffff then 0xffff else m) > growth inFrag + 68 then
    (if m > 0xffff then 0xffff else m) - growth inFrag else 68) = _
  rw [hclamp, if_pos (by omega)]

/-- **What a Packet Too Big becomes**: a Fragmentation Needed, with the MTU less the growth. -/
theorem IngressTranslates.tooBig (hk : k.Lawful) (h : IngressTranslates k c s) {q : List UInt8}
    {m : ℕ} (hbig : TooBigAbout q s.skb.data m) :
    load8 (clatIngress k c s).2.skb.data (ethHlen + ip4Hlen) = 3 ∧
      load8 (clatIngress k c s).2.skb.data (ethHlen + ip4Hlen + 1) = 4 ∧
      ∃ inFrag, (inFrag = true ↔ (Ipv6hdr.load q ethHlen).nexthdr = ipprotoFragment) ∧
        icmpMtu (clatIngress k c s).2.skb.data = mtu4 m inFrag % 65536 := by
  have herr : IsIcmp6Error s.skb.data := by
    refine ⟨hbig.nexthdr, fun hecho => hecho.not_le ?_⟩
    rw [hbig.type]
    decide
  obtain ⟨hlen, v, x, present, -, -, hx, hdata⟩ := h.error hk herr
  obtain ⟨quote, icmp, rest, hquote, -, hicmp, -, hout⟩ := ingressErrorBytes_parts hx present
  have hread := quotedAs_of_quoteBytes hquote
  have hbytes : (x present).2 = icmp.bytes ++ ((quote.in4 k c).bytes ++ rest) :=
    congrArg Prod.snd hout
  rw [hdata, hbytes]
  have htype : load8 (slice s.skb.data (ethHlen + ip6Hlen) 8) 0 = 2 :=
    (load8_slice (by decide)).trans hbig.type
  have hmtu : (bpfNtohl (load32 (slice s.skb.data (ethHlen + ip6Hlen) 8) 4)).toNat = m := by
    rw [load32_slice (by decide)]
    exact hbig.mtu
  have hmap : (icmpMapOf (slice s.skb.data (ethHlen + ip6Hlen) 8)).1 = ⟨3, 4, true⟩ := by
    rw [icmpMapOf, htype]
    rfl
  obtain ⟨htype4, hcode4⟩ :=
    load8_ingressHeaders_icmp k c v (x present).1 hlen icmp ((quote.in4 k c).bytes ++ rest)
  refine ⟨?_, ?_, quote.inFrag, ?_, ?_⟩
  · rw [htype4, hicmp.type, hmap]
  · rw [hcode4, hicmp.code, hmap]
  · rw [hread.inFrag, hbig.quote]
  · have hun := hicmp.un
    rw [newIcmp4, htype, if_pos rfl, hmtu] at hun
    have hfield : load16 (ingressHeaders k c v s.skb.data (x present).1 ++
        (icmp.bytes ++ ((quote.in4 k c).bytes ++ rest))) (ethHlen + ip4Hlen + 6)
          = bpfHtons (UInt16.ofNat (mtu4 m quote.inFrag)) := by
      have hhd : (ingressHeaders k c v s.skb.data (x present).1).length = ethHlen + ip4Hlen :=
        length_ingressHeaders hlen
      rw [load16_append_add hhd, Icmphdr.bytes, hun]
      exact le16_bytes _
    rw [icmpMtu, hfield]
    show (bswap16 (bswap16 _)).toNat = _
    rw [bswap16_bswap16, UInt16.toNat_ofNat']

/-- A packet without options and its translation differ in length by at most what a Packet Too Big
about that translation takes off: by exactly that, unless a whole packet has the protocol number of
the Fragment header. -/
theorem EgressTranslates.growth_le (hk : k.Lawful) (h : EgressTranslates k c s)
    (hopt : (Iphdr.load s.skb.data ethHlen).headerLength = ip4Hlen) {inFrag : Bool}
    (hfrag : (Iphdr.load s.skb.data ethHlen).IsFragment → inFrag = true) :
    packetLength6 (clatEgress k c s).2.skb.data ≤
      (Iphdr.load s.skb.data ethHlen).length + growth inFrag := by
  have hgrow := h.packetLength6_eq hk
  rw [hopt] at hgrow
  simp only [growth, ip6Hlen, ip4Hlen] at hgrow ⊢
  by_cases hf : (Iphdr.load s.skb.data ethHlen).IsFragment
  · rw [if_pos hf] at hgrow
    rw [if_pos (hfrag hf)]
    omega
  · rw [if_neg hf] at hgrow
    omega

/-- The translation of a fragment has a Fragment header. -/
theorem EgressTranslates.nexthdr_of_fragment (hk : k.Lawful) (h : EgressTranslates k c s)
    (hfrag : (Iphdr.load s.skb.data ethHlen).IsFragment) :
    (Ipv6hdr.load (clatEgress k c s).2.skb.data ethHlen).nexthdr = ipprotoFragment := by
  obtain ⟨hacc, hload, -⟩ := h.parts hk
  rw [hload, (ip6HeaderOf_egressVars hacc).nexthdr, if_pos hfrag]

/-- **Path-MTU discovery closes.**  A Packet Too Big with an MTU that IPv6 allows, about a packet of
the pod without options, becomes a Fragmentation Needed with an MTU of at least 68.  If the packet
was too big for the first MTU then it is too big for the second; and a packet of its kind that fits
the second one fits the first one when it is translated, under any kernel and any constants. -/
theorem path_mtu_closes (hk : k.Lawful) (h : EgressTranslates k c s)
    (hopt : (Iphdr.load s.skb.data ethHlen).headerLength = ip4Hlen)
    {k' : Kernel} (hk' : k'.Lawful) {e : State} (he : IngressTranslates k' c e) {m : ℕ}
    (hbig : TooBigAbout (clatEgress k c s).2.skb.data e.skb.data m) (hm : 1280 ≤ m) :
    load8 (clatIngress k' c e).2.skb.data (ethHlen + ip4Hlen) = 3 ∧
      load8 (clatIngress k' c e).2.skb.data (ethHlen + ip4Hlen + 1) = 4 ∧
      68 ≤ icmpMtu (clatIngress k' c e).2.skb.data ∧
      (m < packetLength6 (clatEgress k c s).2.skb.data →
        icmpMtu (clatIngress k' c e).2.skb.data < (Iphdr.load s.skb.data ethHlen).length) ∧
      ∀ (kᵣ : Kernel) (cᵣ : Constants) (r : State), kᵣ.Lawful → EgressTranslates kᵣ cᵣ r →
        (Iphdr.load r.skb.data ethHlen).headerLength = ip4Hlen →
        ((Iphdr.load r.skb.data ethHlen).IsFragment ↔
          (Iphdr.load s.skb.data ethHlen).IsFragment) →
        (Iphdr.load r.skb.data ethHlen).length ≤ icmpMtu (clatIngress k' c e).2.skb.data →
        packetLength6 (clatEgress kᵣ cᵣ r).2.skb.data ≤ m := by
  obtain ⟨htype, hcode, inFrag, hin, hmtu⟩ := he.tooBig hk' hbig
  have hgrowth : growth inFrag ≤ 28 := by cases inFrag <;> decide
  have hfield : icmpMtu (clatIngress k' c e).2.skb.data = min m 65535 - growth inFrag := by
    rw [hmtu, mtu4_eq hm, Nat.mod_eq_of_lt (by omega)]
  have hfrag : (Iphdr.load s.skb.data ethHlen).IsFragment → inFrag = true :=
    fun hf => hin.mpr (h.nexthdr_of_fragment hk hf)
  rw [hfield]
  refine ⟨htype, hcode, by omega, fun hlong => ?_, fun kᵣ cᵣ r hkᵣ hr hoptᵣ hkind hfits => ?_⟩
  · have hgrow := h.growth_le hk hopt hfrag
    omega
  · have hgrow := hr.growth_le hkᵣ hoptᵣ fun hf => hfrag (hkind.mp hf)
    omega

/-- A Packet Too Big from a router outside the prefix, about the packet in the frame `q`, of which
it quotes the headers. -/
def testTooBig (q : List UInt8) (mtu : UInt32) : List UInt8 :=
  testFrame6 58 [0x20, 0x01, 0x0d, 0xb8, 0, 1, 0, 0, 0, 0, 0, 0, 0, 0, 0, 1]
    ([2, 0, 0, 0] ++ (le32Bytes (bpfHtonl mtu) ++ (q.drop ethHlen).take 48))

/-- The fragment of 1260 bytes, which leaves in 1288, and the router that takes 1280 at once.  The
pod learns an MTU of 1252, which the fragment exceeds and with which it fits. -/
theorem path_mtu_closes_fragment :
    let s := testState (testFrame4 0x2001 17 (List.replicate 1240 0)) ethPIp
    let e := testState (testTooBig (clatEgress .reference testConstants s).2.skb.data 1280) ethPIpv6
    let r := testState (testFrame4 0x2001 17 (List.replicate 1232 0)) ethPIp
    EgressTranslates .reference testConstants s ∧ IngressTranslates .reference testConstants e ∧
      TooBigAbout (clatEgress .reference testConstants s).2.skb.data e.skb.data 1280 ∧
      icmpMtu (clatIngress .reference testConstants e).2.skb.data <
        (Iphdr.load s.skb.data ethHlen).length ∧
      packetLength6 (clatEgress .reference testConstants r).2.skb.data ≤ 1280 := by
  intro s e r
  have hs : EgressTranslates .reference testConstants s := by decide +kernel
  have he : IngressTranslates .reference testConstants e := by decide +kernel
  have hr : EgressTranslates .reference testConstants r := by decide +kernel
  have hbig : TooBigAbout (clatEgress .reference testConstants s).2.skb.data e.skb.data 1280 :=
    ⟨by decide +kernel, by decide +kernel, by decide +kernel, by decide +kernel⟩
  have hopt : (Iphdr.load s.skb.data ethHlen).headerLength = ip4Hlen := by decide +kernel
  obtain ⟨-, -, -, hprogress, hfits⟩ := path_mtu_closes (s := s) Kernel.reference_lawful hs hopt
    Kernel.reference_lawful he hbig (by decide)
  exact ⟨hs, he, hbig, hprogress (by decide +kernel),
    hfits .reference testConstants r Kernel.reference_lawful hr (by decide +kernel)
      (by decide +kernel) (by decide +kernel)⟩

end CiliumClat
