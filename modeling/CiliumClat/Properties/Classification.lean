import CiliumClat.Refinement.Egress
import CiliumClat.Refinement.Ingress
import CiliumClat.Kernel.Reference

/-!
# Which packets are touched

A pod has native IPv6 traffic and CLAT traffic on one interface, and the programs have to tell
them apart before they do anything that cannot be undone.  Two statements say that they do.
Traffic that is not CLAT traffic passes without a trace, whatever it looks like and whichever
helper fails.  And return traffic from the prefix does not reach the IPv6 stack of the pod, once
its headers are linear: it is dropped, or it has become IPv4.

The second statement has an exception in the source: a frame of fewer than 62 bytes is let
through, "the stack will judge it".

`EgressTranslates` and `IngressTranslates` are what later statements assume when they speak of a
packet that is translated.
-/

namespace CiliumClat

open ByteList OnesComplement EarlyExit

variable {k : Kernel} {c : Constants} {s : State}

/-! ## Frames with new headers in front -/

/-- The EtherType behind the MAC addresses. -/
theorem hasEtherType_take_append (data : List UInt8) {l : List UInt8} {et : UInt16}
    (h : 12 ≤ data.length) :
    HasEtherType (data.take 12 ++ (le16Bytes (bpfHtons et) ++ l)) et := by
  have hmac : (data.take 12).length = 12 := by
    rw [List.length_take]
    omega
  constructor
  · rw [List.length_append, List.length_append, hmac, length_le16Bytes]
    show 14 ≤ 12 + (2 + l.length)
    omega
  · exact (load16_append_add hmac _ 0).trans (load16_le16Bytes _ _)

theorem hasEtherType_ingressHeaders {v : IngressVars} {data l : List UInt8} {totLen : UInt16}
    (h : 12 ≤ data.length) : HasEtherType (ingressHeaders k c v data totLen ++ l) ethPIp := by
  rw [ingressHeaders, List.append_assoc, List.append_assoc]
  exact hasEtherType_take_append data h

/-- The IPv4 header of an ingress translation. -/
theorem iphdr_load_ingressHeaders (k : Kernel) (c : Constants) (v : IngressVars)
    (totLen : UInt16) {data : List UInt8} (l : List UInt8) (h : 12 ≤ data.length) :
    Iphdr.load (ingressHeaders k c v data totLen ++ l) ethHlen = v.h4 k c totLen := by
  rw [ingressHeaders, ← List.append_assoc, List.append_assoc]
  exact Iphdr.load_append_bytes (length_macHeader h _) _ _

/-! ## Runs that translate -/

/-- `clat_egress` translates the packet: it is IPv4, and the verdict is `TC_ACT_OK`. -/
def EgressTranslates (k : Kernel) (c : Constants) (s : State) : Prop :=
  HasEtherType s.skb.data ethPIp ∧ (clatEgress k c s).1 = .ok

/-- `clat_ingress` translates the packet: it is IPv6, the verdict is `TC_ACT_OK`, and it is IPv4
afterwards. -/
def IngressTranslates (k : Kernel) (c : Constants) (s : State) : Prop :=
  HasEtherType s.skb.data ethPIpv6 ∧ (clatIngress k c s).1 = .ok ∧
    HasEtherType (clatIngress k c s).2.skb.data ethPIp

instance (k : Kernel) (c : Constants) (s : State) : Decidable (EgressTranslates k c s) :=
  inferInstanceAs (Decidable (_ ∧ _))

instance (k : Kernel) (c : Constants) (s : State) : Decidable (IngressTranslates k c s) :=
  inferInstanceAs (Decidable (_ ∧ _ ∧ _))

/-- A translated packet is the egress translation of the frame. -/
theorem EgressTranslates.out (hk : k.Lawful) (h : EgressTranslates k c s) :
    egressFrame k c s.skb.ipSummed s.skb.data = .ok (clatEgress k c s).2.skb.data := by
  rcases clatEgress_cases hk h.1 with ⟨out, hout, htr⟩ | ⟨key, -, hdrop, -⟩
  · rw [htr.data]
    exact hout
  · exact absurd (h.2.symm.trans hdrop.verdict) (by decide)

/-- The run that translates a packet: the packet is return traffic, and a right `skb->csum` is kept
right. -/
theorem IngressTranslates.run (hk : k.Lawful) (h : IngressTranslates k c s) :
    ReturnTraffic c s.skb.data ∧ ethHlen + ip6Hlen + fragHlen ≤ s.skb.data.length ∧
      ∃ out present, ingressFrame k c s.skb.ipSummed s.skb.data = .ok out ∧
        Translated s .ingressTranslated (bpfHtons ethPIp) (out present) (clatIngress k c s) ∧
        (NoFault k s ethPIpv6 → present = true) ∧
        (s.skb.ipSummed = .checksumComplete → (s.skb.csum.toNat : ZMod 65535) = s.skb.netSum →
          ((clatIngress k c s).2.skb.csum.toNat : ZMod 65535)
            = (clatIngress k c s).2.skb.netSum) := by
  rcases clatIngress_cases hk (False.elim : False → _) False.elim with
    ⟨hpass, -⟩ | ⟨⟨hlen, hret⟩, ⟨out, hout, present, hpresent, htr, hkept⟩ | ⟨key, -, hdrop, -⟩⟩
  · -- a packet that passes still has its EtherType
    have hv4 := h.2.2.2
    rw [hpass.data, h.1.2] at hv4
    exact absurd hv4 (by decide)
  · exact ⟨hret, hlen, out, present, hout, htr, hpresent, hkept⟩
  · exact absurd (h.2.1.symm.trans hdrop.verdict) (by decide)

/-- A translated packet is return traffic, and it is the ingress translation of the frame. -/
theorem IngressTranslates.out (hk : k.Lawful) (h : IngressTranslates k c s) :
    ReturnTraffic c s.skb.data ∧ ethHlen + ip6Hlen + fragHlen ≤ s.skb.data.length ∧
      ∃ out present, ingressFrame k c s.skb.ipSummed s.skb.data = .ok out ∧
        (clatIngress k c s).2.skb.data = out present := by
  obtain ⟨hret, hlen, out, present, hout, htr, -⟩ := h.run hk
  exact ⟨hret, hlen, out, present, hout, htr.data⟩

/-- Without faults, what has an egress translation is translated. -/
theorem clatEgress_of_frame (hk : k.Lawful) (hn : NoFault k s ethPIp)
    (h : HasEtherType s.skb.data ethPIp) {out : List UInt8}
    (hout : egressFrame k c s.skb.ipSummed s.skb.data = .ok out) :
    (clatEgress k c s).1 = .ok ∧ (clatEgress k c s).2.skb.data = out := by
  rcases clatEgress_cases hk h with ⟨out', hout', htr⟩ | ⟨key, -, -, herr⟩
  · cases Except.ok.inj (hout.symm.trans hout')
    exact ⟨htr.verdict, htr.data⟩
  · exact nomatch hout.symm.trans (herr hn)

/-- Without faults, return traffic that has an ingress translation is translated, and every load
succeeds. -/
theorem clatIngress_of_frame (hk : k.Lawful) (hn : NoFault k s ethPIpv6)
    (hret : ReturnTraffic c s.skb.data)
    (hlen : ethHlen + ip6Hlen + fragHlen ≤ s.skb.data.length) {out : Bool → List UInt8}
    (hout : ingressFrame k c s.skb.ipSummed s.skb.data = .ok out) :
    (clatIngress k c s).1 = .ok ∧ (clatIngress k c s).2.skb.data = out true := by
  have hlin : ∀ {n : ℕ} {s' : State}, s'.skb.data = s.skb.data → n ≤ s.skb.data.length →
      Linearises k n s' := by
    intro n s' hdata hn'
    exact Or.inr (hn.1.pullData (by rwa [hdata]))
  rcases clatIngress_cases hk (fun _ => hlin rfl) (fun _ _ s' hs' => hlin hs'.data) with
    ⟨-, hnot⟩ | ⟨-, ⟨out', hout', present, hpresent, htr, -⟩ | ⟨key, -, -, herr⟩⟩
  · exact absurd ⟨hlen, hret⟩ (hnot trivial)
  · cases Except.ok.inj (hout.symm.trans hout')
    rw [hpresent hn] at htr
    exact ⟨htr.verdict, htr.data⟩
  · exact nomatch hout.symm.trans (herr hn)

/-! ## A pod to try things on -/

/-- The constants of the packet tests: `64:ff9b:1::/96`, `2001:db8:cafe::2`, `192.0.0.2` and
`192.0.0.8`. -/
def testConstants : Constants where
  clatPrefix := In6Addr.load [0x00, 0x64, 0xff, 0x9b, 0x00, 0x01, 0, 0, 0, 0, 0, 0, 0, 0, 0, 0] 0
  podIp6 := In6Addr.load [0x20, 0x01, 0x0d, 0xb8, 0xca, 0xfe, 0, 0, 0, 0, 0, 0, 0, 0, 0, 2] 0
  podIp4 := load32 [192, 0, 0, 2] 0
  errIp4 := load32 [192, 0, 0, 8] 0

/-- The bytes of `64:ff9b:1::198.51.100.10`, the peer of the packet tests. -/
def testPeer6 : List UInt8 :=
  [0x00, 0x64, 0xff, 0x9b, 0x00, 0x01, 0, 0, 0, 0, 0, 0, 198, 51, 100, 10]

/-- A frame in a linear buffer, with all counters at zero. -/
def testState (data : List UInt8) (proto : UInt16) : State where
  skb := .linear data (bpfHtons proto) .checksumNone 0
  counters := fun _ => 0
  calls := 0

/-- The MAC addresses of the packet tests. -/
def testMacs : List UInt8 :=
  [0x02, 0, 0, 0, 0, 0x02, 0x02, 0, 0, 0, 0, 0x01]

/-- An IPv6 frame of the packet tests to the pod, with the given next header, source and payload. -/
def testFrame6 (nexthdr : UInt8) (saddr : List UInt8) (payload : List UInt8) : List UInt8 :=
  let h6 : Ipv6hdr := {
    vtcFlow := bpfHtonl 0x60000000
    payloadLen := bpfHtons (UInt16.ofNat payload.length)
    nexthdr := nexthdr
    hopLimit := 60
    saddr := In6Addr.load saddr 0
    daddr := testConstants.podIp6 }
  testMacs ++ (le16Bytes (bpfHtons ethPIpv6) ++ (h6.bytes ++ payload))

/-- An IPv4 frame of the packet tests from the pod to `198.51.100.10`, with the given fragment
word, protocol and payload. -/
def testFrame4 (fragOff : UInt16) (protocol : UInt8) (payload : List UInt8) : List UInt8 :=
  let h4 : Iphdr := withCheck .reference {
    version := 4
    ihl := 5
    tos := 0
    totLen := bpfHtons (UInt16.ofNat (20 + payload.length))
    id := bpfHtons 0x1234
    fragOff := bpfHtons fragOff
    ttl := 64
    protocol := protocol
    check := 0
    saddr := testConstants.podIp4
    daddr := load32 [198, 51, 100, 10] 0 }
  testMacs ++ (le16Bytes (bpfHtons ethPIp) ++ (h4.bytes ++ payload))

/-! ## Native traffic -/

/-- **Native traffic is untouched.**  What is not CLAT return traffic passes `clat_ingress`, and
what is not IPv4 passes `clat_egress`: with `TC_ACT_OK`, the same bytes and the same counters,
whatever the helpers do. -/
theorem native_traffic_untouched (hk : k.Lawful) (c : Constants) (s : State) :
    (¬ ReturnTraffic c s.skb.data → Passed s (clatIngress k c s)) ∧
      (¬ HasEtherType s.skb.data ethPIp → Passed s (clatEgress k c s)) := by
  constructor
  · intro hnative
    rcases clatIngress_cases hk (False.elim : False → _) False.elim with
      ⟨hpass, -⟩ | ⟨⟨-, hret⟩, -⟩
    · exact hpass
    · exact absurd hret hnative
  · intro hnot
    rw [clatEgress_of_not_ipv4 hnot]
    exact ⟨rfl, rfl, rfl, rfl, rfl⟩

/-- A reply from a native IPv6 host, in both programs. -/
theorem native_traffic_untouched_reply :
    let s := testState (testFrame6 6 [0x20, 0x01, 0x0d, 0xb8, 0, 1, 0, 0, 0, 0, 0, 0, 0, 0, 0, 1]
      (List.replicate 20 0)) ethPIpv6
    (¬ ReturnTraffic testConstants s.skb.data ∧
      Passed s (clatIngress .reference testConstants s)) ∧
    (¬ HasEtherType s.skb.data ethPIp ∧ Passed s (clatEgress .reference testConstants s)) := by
  intro s
  have hnative : ¬ ReturnTraffic testConstants s.skb.data := by decide
  have hnot : ¬ HasEtherType s.skb.data ethPIp := by decide
  have h := native_traffic_untouched Kernel.reference_lawful testConstants s
  exact ⟨⟨hnative, h.1 hnative⟩, hnot, h.2 hnot⟩

/-! ## Return traffic from the prefix -/

/-- A frame with a complete IPv6 header from the prefix to the pod. -/
def FromPrefix (c : Constants) (data : List UInt8) : Prop :=
  HasEtherType data ethPIpv6 ∧ ethHlen + ip6Hlen ≤ data.length ∧
    (Ipv6hdr.load data ethHlen).version = 6 ∧ (Ipv6hdr.load data ethHlen).daddr = c.podIp6 ∧
    inPrefix c (Ipv6hdr.load data ethHlen).saddr = true

instance (c : Constants) (data : List UInt8) : Decidable (FromPrefix c data) :=
  inferInstanceAs (Decidable (_ ∧ _))

/-- The packet does not reach the IPv6 stack of the pod: it is dropped, or it is an IPv4 packet to
the pod. -/
def NotLeaked (c : Constants) (res : TcAct × State) : Prop :=
  res.1 = .shot ∨ res.1 = .ok ∧ HasEtherType res.2.skb.data ethPIp ∧
    (Iphdr.load res.2.skb.data ethHlen).daddr = c.podIp4

instance (c : Constants) (res : TcAct × State) : Decidable (NotLeaked c res) :=
  inferInstanceAs (Decidable (_ ∨ _))

theorem FromPrefix.returnTraffic {data : List UInt8} (h : FromPrefix c data) :
    ReturnTraffic c data :=
  ⟨h.1.2, h.2.1, h.2.2.1, h.2.2.2.1, Or.inl h.2.2.2.2⟩

/-- What follows the ingress translation does not leak. -/
theorem FollowsIngress.notLeaked {res : TcAct × State} (h : FollowsIngress k c s res)
    (hlen : 12 ≤ s.skb.data.length) : NotLeaked c res := by
  rcases h with ⟨out, hout, present, -, htr, -⟩ | ⟨key, -, hdrop, -⟩
  · obtain ⟨v, x, -, -, rfl⟩ := ingressFrame_eq_ok.mp hout
    refine Or.inr ⟨htr.verdict, ?_, ?_⟩
    · rw [htr.data]
      exact hasEtherType_ingressHeaders hlen
    · rw [htr.data, iphdr_load_ingressHeaders _ _ _ _ _ hlen]
      rfl
  · exact Or.inl hdrop.verdict

/-- **Return traffic does not leak untranslated** once its first 62 bytes are linear; a frame that
is shorter passes as it is. -/
theorem return_traffic_not_leaked (hk : k.Lawful) (h : FromPrefix c s.skb.data) :
    (Linearises k (ethHlen + ip6Hlen + fragHlen) s → NotLeaked c (clatIngress k c s)) ∧
      (s.skb.data.length < ethHlen + ip6Hlen + fragHlen → Passed s (clatIngress k c s)) := by
  constructor
  · intro hlin
    -- the second linearisation is only for sources outside the prefix
    have hsrc : ∀ {p : Prop}, inPrefix c (Ipv6hdr.load s.skb.data ethHlen).saddr = false → p :=
      fun hout => absurd (h.2.2.2.2.symm.trans hout) (by decide)
    have hlen : ethHlen + ip6Hlen + fragHlen ≤ s.skb.data.length := by
      rcases hlin with hl | ⟨skb, hpull, hl⟩
      · exact le_trans hl s.skb.headlen_le
      · rw [← (hk.pullData hpull).data]
        exact le_trans hl skb.headlen_le
    rcases clatIngress_cases hk (fun _ _ => hlin) (fun (_ : True) hout => hsrc hout) with
      ⟨-, hnot⟩ | ⟨-, hfollows⟩
    · exact absurd ⟨hlen, h.returnTraffic⟩ (hnot trivial)
    · exact hfollows.notLeaked (le_trans (by decide) hlen)
  · intro hshort
    rcases clatIngress_cases hk (False.elim : False → _) False.elim with
      ⟨hpass, -⟩ | ⟨⟨hlen, -⟩, -⟩
    · exact hpass
    · exact absurd hlen (by omega)

/-- A TCP segment from the prefix, in a linear buffer. -/
theorem return_traffic_not_leaked_tcp :
    let s := testState (testFrame6 6 testPeer6 (List.replicate 20 0)) ethPIpv6
    FromPrefix testConstants s.skb.data ∧
      Linearises .reference (ethHlen + ip6Hlen + fragHlen) s ∧
      NotLeaked testConstants (clatIngress .reference testConstants s) := by
  intro s
  have hfrom : FromPrefix testConstants s.skb.data := by decide
  have hlin : Linearises .reference (ethHlen + ip6Hlen + fragHlen) s := Or.inl (by decide)
  have h := return_traffic_not_leaked Kernel.reference_lawful hfrom
  exact ⟨hfrom, hlin, h.1 hlin⟩

/-- A kernel that has no memory to pull data into. -/
def Kernel.withoutPull : Kernel :=
  { Kernel.reference with skbPullData := fun _ _ _ => none }

theorem Kernel.withoutPull_lawful : Kernel.withoutPull.Lawful :=
  { Kernel.reference_lawful with pullData := fun h => nomatch h }

/-- A frame in a buffer of which only the Ethernet header is linear. -/
def pagedState (data : List UInt8) (proto : UInt16) : State where
  skb := {
    data := data
    headlen := min ethHlen data.length
    protocol := bpfHtons proto
    ipSummed := .checksumNone
    csum := 0
    headlen_le := Nat.min_le_right _ _
    mac_linear := Nat.le_refl _ }
  counters := fun _ => 0
  calls := 0

/-- An IPv6 header from the prefix to the pod with no payload reaches the pod as it is, and so
does a TCP segment whose headers cannot be made linear. -/
theorem short_return_traffic_leaks :
    (Kernel.reference.Lawful ∧ ∃ s, FromPrefix testConstants s.skb.data ∧
      ¬ NotLeaked testConstants (clatIngress .reference testConstants s)) ∧
    Kernel.withoutPull.Lawful ∧ ∃ s, FromPrefix testConstants s.skb.data ∧
      ¬ NotLeaked testConstants (clatIngress .withoutPull testConstants s) :=
  ⟨⟨Kernel.reference_lawful, testState (testFrame6 59 testPeer6 []) ethPIpv6,
      by decide, by decide⟩,
    Kernel.withoutPull_lawful,
    pagedState (testFrame6 6 testPeer6 (List.replicate 20 0)) ethPIpv6, by decide, by decide⟩

end CiliumClat
