import CiliumClat.Translation.Edits
import CiliumClat.Datapath.Ingress

/-!
# What ingress does to a frame

`ReturnTraffic` says which frames are CLAT return traffic, and `ingressFrame` is their
translation as a function on bytes: the IPv4 frame, or the counter the frame is dropped with.

One helper call of `clat_ingress` may fail without the packet being dropped: the load of the
quoted TCP or UDP checksum, which is only a courtesy.  So the translation has one Boolean
argument, whether that load succeeded, and it comes last: nothing else depends on it.
-/

namespace CiliumClat

open ByteList OnesComplement EarlyExit

/-! ## Return traffic -/

/-- A version-6 header of a packet from the pod into the prefix. -/
def FromPod (c : Constants) (in6 : Ipv6hdr) : Prop :=
  in6.version = 6 ∧ in6.saddr = c.podIp6 ∧ inPrefix c in6.daddr = true

instance (c : Constants) (in6 : Ipv6hdr) : Decidable (FromPod c in6) :=
  inferInstanceAs (Decidable (_ ∧ _))

/-- An ICMPv6 error that quotes a complete header of a packet from the pod into the prefix. -/
def QuotesPod (c : Constants) (data : List UInt8) : Prop :=
  (Ipv6hdr.load data ethHlen).nexthdr = ipprotoIcmpv6 ∧
    ethHlen + ip6Hlen + 8 + ip6Hlen ≤ data.length ∧
    1 ≤ load8 data (ethHlen + ip6Hlen) ∧ load8 data (ethHlen + ip6Hlen) ≤ 4 ∧
    FromPod c (Ipv6hdr.load data (ethHlen + ip6Hlen + 8))

instance (c : Constants) (data : List UInt8) : Decidable (QuotesPod c data) :=
  inferInstanceAs (Decidable (_ ∧ _))

/-- **CLAT return traffic**: an IPv6 frame to the pod, from the prefix or an ICMPv6 error about a
packet into it. -/
def ReturnTraffic (c : Constants) (data : List UInt8) : Prop :=
  load16 data 12 = bpfHtons ethPIpv6 ∧ ethHlen + ip6Hlen ≤ data.length ∧
    (Ipv6hdr.load data ethHlen).version = 6 ∧ (Ipv6hdr.load data ethHlen).daddr = c.podIp6 ∧
    (inPrefix c (Ipv6hdr.load data ethHlen).saddr = true ∨ QuotesPod c data)

instance (c : Constants) (data : List UInt8) : Decidable (ReturnTraffic c data) :=
  inferInstanceAs (Decidable (_ ∧ _))

/-! ## TCP, UDP and echo -/

/-- The new total length and the new bytes behind the IPv4 header, given whether the quoted
checksum could be read. -/
abbrev IngressOut : Type := Bool → UInt16 × List UInt8

/-- The outcome of a packet whose length does not change. -/
def sameLength (v : IngressVars) (l4 : List UInt8) : IngressOut :=
  fun _ => (v.totLen, l4)

/-- UDP. -/
def ingressUdpBytes (k : Kernel) (c : Constants) (st : IpSummed) (v : IngressVars)
    (l4 : List UInt8) : Except Counter (List UInt8) := do
  let check ← loadAt .ingressDropTruncated 6 2 l4
  if load16 check 0 = 0 then
    .error .ingressDropUdpZeroCsum
  else
    csumAt .ingressDropHelper st pseudoHdrMangled0 (ingressDiff k c v) 6 l4

/-- ICMPv6 echo. -/
def ingressEchoBytes (k : Kernel) (st : IpSummed) (v : IngressVars) (t6 code : UInt8)
    (l4 : List UInt8) : Except Counter (List UInt8) := do
  let l4 ← storeAt .ingressDropHelper 0 [echoType4 t6] l4
  csumAt .ingressDropHelper st pseudoHdr (ingressEchoDiff k v t6 code) 2 l4

/-! ## ICMPv6 errors -/

/-- The quoted headers behind the ICMPv6 header at the front of `l4`. -/
def quoteFragmentBytes (in6 : Ipv6hdr) (l4 : List UInt8) : Except Counter Quote :=
  if in6.nexthdr = ipprotoFragment then do
    let b ← loadAt .ingressDropIcmpInner (8 + ip6Hlen) fragHlen l4
    .ok (fragQuote in6 (FragHdr.load b 0))
  else
    .ok (plainQuote in6)

/-- The quote of an ICMPv6 error. -/
def quoteBytes (c : Constants) (l4 : List UInt8) : Except Counter Quote := do
  let b ← loadAt .ingressDropIcmpInner 8 ip6Hlen l4
  if FromPod c (Ipv6hdr.load b 0) then
    let q ← quoteFragmentBytes (Ipv6hdr.load b 0) l4
    if isExtHdr q.inNh then .error .ingressDropIcmpInner else .ok q
  else
    .error .ingressDropIcmpInner

/-- **What is read as a quote.**  The quoted header is complete and of a packet from the pod into
the prefix, the Fragment header is complete if there is one, and no other extension header
follows. -/
theorem quoteBytes_eq_ok {c : Constants} {l4 : List UInt8} {q : Quote} :
    quoteBytes c l4 = .ok q ↔
      8 + ip6Hlen ≤ l4.length ∧ FromPod c (Ipv6hdr.load l4 8) ∧ isExtHdr q.inNh = false ∧
        ((Ipv6hdr.load l4 8).nexthdr ≠ ipprotoFragment ∧ q = plainQuote (Ipv6hdr.load l4 8) ∨
          (Ipv6hdr.load l4 8).nexthdr = ipprotoFragment ∧ 8 + ip6Hlen + fragHlen ≤ l4.length ∧
            q = fragQuote (Ipv6hdr.load l4 8) (FragHdr.load l4 (8 + ip6Hlen))) := by
  have hin6 : Ipv6hdr.load (slice l4 8 ip6Hlen) 0 = Ipv6hdr.load l4 8 := Ipv6hdr.load_slice l4 8
  have hfh : FragHdr.load (slice l4 (8 + ip6Hlen) fragHlen) 0 = FragHdr.load l4 (8 + ip6Hlen) :=
    FragHdr.load_slice l4 _
  have hread : ∀ q', quoteFragmentBytes (Ipv6hdr.load l4 8) l4 = .ok q' ↔
      ((Ipv6hdr.load l4 8).nexthdr ≠ ipprotoFragment ∧ q' = plainQuote (Ipv6hdr.load l4 8) ∨
        (Ipv6hdr.load l4 8).nexthdr = ipprotoFragment ∧ 8 + ip6Hlen + fragHlen ≤ l4.length ∧
          q' = fragQuote (Ipv6hdr.load l4 8) (FragHdr.load l4 (8 + ip6Hlen))) := by
    intro q'
    rw [quoteFragmentBytes]
    by_cases hnh : (Ipv6hdr.load l4 8).nexthdr = ipprotoFragment
    · rw [if_pos hnh, bind_eq_ok]
      simp only [loadAt_eq_ok, Except.ok.injEq]
      constructor
      · rintro ⟨_, ⟨hlen, rfl⟩, rfl⟩
        exact Or.inr ⟨hnh, hlen, by rw [hfh]⟩
      · rintro (⟨hne, -⟩ | ⟨-, hlen, rfl⟩)
        · exact absurd hnh hne
        · exact ⟨_, ⟨hlen, rfl⟩, by rw [hfh]⟩
    · rw [if_neg hnh, Except.ok.injEq]
      constructor
      · rintro rfl
        exact Or.inl ⟨hnh, rfl⟩
      · rintro (⟨-, rfl⟩ | ⟨heq, -⟩)
        · rfl
        · exact absurd heq hnh
  rw [quoteBytes, bind_eq_ok]
  simp only [loadAt_eq_ok]
  constructor
  · rintro ⟨_, ⟨hlen, rfl⟩, h⟩
    rw [hin6] at h
    by_cases hpod : FromPod c (Ipv6hdr.load l4 8)
    · rw [if_pos hpod, bind_eq_ok] at h
      obtain ⟨q', hq', h⟩ := h
      rw [ite_error_eq_ok] at h
      obtain ⟨hext, h⟩ := h
      cases Except.ok.inj h
      exact ⟨hlen, hpod, Bool.eq_false_iff.mpr hext, (hread q).mp hq'⟩
    · rw [if_neg hpod] at h
      exact nomatch h
  · rintro ⟨hlen, hpod, hext, hq⟩
    refine ⟨_, ⟨hlen, rfl⟩, ?_⟩
    rw [hin6, if_pos hpod, bind_eq_ok]
    refine ⟨q, (hread q).mpr hq, ?_⟩
    rw [hext, if_neg Bool.false_ne_true]

/-- A quote fits into the bytes it is read from. -/
theorem quoteBytes_length {c : Constants} {l4 : List UInt8} {q : Quote}
    (h : quoteBytes c l4 = .ok q) : q.shrink + 28 ≤ l4.length := by
  obtain ⟨hlen, -, -, ⟨-, rfl⟩ | ⟨-, hlen', rfl⟩⟩ := quoteBytes_eq_ok.mp h
  · exact hlen
  · exact hlen'

theorem Quote.shrink_eq (q : Quote) : q.shrink = 20 ∨ q.shrink = 28 := by
  rw [Quote.shrink]
  split
  · exact Or.inr rfl
  · exact Or.inl rfl

/-- The quoted echo `inner`, with the outer difference. -/
def innerEchoBytes (k : Kernel) (q : Quote) (d : UInt32) (inner : List UInt8) :
    Except Counter (List UInt8 × UInt32) := do
  let it ← loadAt .ingressDropIcmpInner 0 2 inner
  if load8 it 0 = icmpv6EchoRequest ∨ load8 it 0 = icmpv6EchoReply then
    let oc ← loadAt .ingressDropIcmpInner 2 2 inner
    let nc := innerNc (innerEchoDiff k q (load8 it 0) (load8 it 1)) (load16 oc 0)
    let inner ← storeAt .ingressDropHelper 0 [innerEchoType (load8 it 0)] inner
    let inner ← storeAt .ingressDropHelper 2 (le16Bytes nc) inner
    .ok (inner, innerEchoOuter k (load8 it 0) (load8 it 1) (load16 oc 0) nc d)
  else
    .ok (inner, d)

/-- The quoted ICMPv6 message, with the outer difference. -/
def innerIcmpBytes (k : Kernel) (q : Quote) (d : UInt32) (inner : List UInt8) :
    Except Counter (List UInt8 × UInt32) :=
  if q.inNh = ipprotoIcmpv6 ∧ ¬ q.inFrag then innerEchoBytes k q d inner else .ok (inner, d)

/-- The quoted TCP or UDP checksum, with the outer difference. -/
def innerCsumBytes (k : Kernel) (c : Constants) (q : Quote) (d : UInt32) (inner : List UInt8)
    (present : Bool) : List UInt8 × UInt32 :=
  if (innerCoff q.inNh ≠ 0 ∧ q.inFrag4 &&& ipOffset = 0) ∧
      (present ∧ innerCoff q.inNh + 2 ≤ inner.length) ∧ load16 inner (innerCoff q.inNh) ≠ 0 then
    let oc := load16 inner (innerCoff q.inNh)
    let nc := innerNc (innerAddrDiff k c q) oc
    (splice inner (innerCoff q.inNh) (le16Bytes nc), word16Diff k oc nc d)
  else
    (inner, d)

/-- The new ICMPv4 message: the new headers, then the quoted transport bytes, with the checksum
filled in. -/
def errorMessage (k : Kernel) (c : Constants) (st : IpSummed) (q : Quote) (hdr : List UInt8)
    (inner : List UInt8 × UInt32) : List UInt8 :=
  updateCsum st pseudoHdr inner.2 2 (q.newBytes k c hdr ++ inner.1)

/-- What becomes of the quoted transport bytes, and the total length, once the quote is read. -/
def errorOut (k : Kernel) (c : Constants) (st : IpSummed) (v : IngressVars) (hdr : List UInt8)
    (q : Quote) (x : List UInt8 × UInt32) : IngressOut :=
  fun present => (v.totLen - UInt16.ofNat q.shrink,
    errorMessage k c st q hdr (innerCsumBytes k c q x.2 x.1 present))

/-- An ICMPv6 error. -/
def ingressErrorBytes (k : Kernel) (c : Constants) (st : IpSummed) (v : IngressVars)
    (hdr l4 : List UInt8) : Except Counter IngressOut :=
  if ¬ (icmpMapOf hdr).1.ok then
    .error .ingressDropIcmpUnsupported
  else do
    let q ← quoteBytes c l4
    let x ← innerIcmpBytes k q (errorDiff k c v q hdr) (l4.drop (q.shrink + 28))
    .ok (errorOut k c st v hdr q x)

/-- An ICMPv6 echo request or reply. -/
def IsEcho6 (t : UInt8) : Prop :=
  t = icmpv6EchoReply ∨ t = icmpv6EchoRequest

instance (t : UInt8) : Decidable (IsEcho6 t) :=
  inferInstanceAs (Decidable (_ ∨ _))

/-- An echo is no error. -/
theorem IsEcho6.not_le {t : UInt8} (h : IsEcho6 t) : ¬ t ≤ 4 := by
  rcases h with rfl | rfl
  · decide
  · decide

/-- ICMPv6. -/
def ingressIcmpBytes (k : Kernel) (c : Constants) (st : IpSummed) (v : IngressVars)
    (l4 : List UInt8) : Except Counter IngressOut := do
  let hdr ← loadAt .ingressDropTruncated 0 8 l4
  if IsEcho6 (load8 hdr 0) then
    ingressEchoBytes k st v (load8 hdr 0) (load8 hdr 1) l4 >>= fun l4 => .ok (sameLength v l4)
  else
    ingressErrorBytes k c st v hdr l4

/-- The transport header of an unfragmented packet or a first fragment. -/
def ingressL4Bytes (k : Kernel) (c : Constants) (st : IpSummed) (v : IngressVars)
    (l4 : List UInt8) : Except Counter IngressOut :=
  if v.nh = ipprotoTcp then
    csumAt .ingressDropHelper st pseudoHdr (ingressDiff k c v) 16 l4 >>=
      fun l4 => .ok (sameLength v l4)
  else if v.nh = ipprotoUdp then
    ingressUdpBytes k c st v l4 >>= fun l4 => .ok (sameLength v l4)
  else if v.nh = ipprotoIcmpv6 then
    ingressIcmpBytes k c st v l4
  else
    .ok (sameLength v l4)

/-! ## The frame -/

/-- The headers in front of the transport header: the MAC addresses of `data`, EtherType and IPv4
header. -/
def ingressHeaders (k : Kernel) (c : Constants) (v : IngressVars) (data : List UInt8)
    (totLen : UInt16) : List UInt8 :=
  data.take 12 ++ (le16Bytes (bpfHtons ethPIp) ++ (v.h4 k c totLen).bytes)

/-- The outer headers read and checked, with the whole frame linear. -/
def ingressVars (c : Constants) (data : List UInt8) : Except Counter IngressVars :=
  ingressHeader data data.length (Ipv6hdr.load data ethHlen).saddr
    (Ipv6hdr.load data ethHlen).daddr (inPrefix c (Ipv6hdr.load data ethHlen).saddr)

/-- What follows the IPv6 header and the Fragment header. -/
def IngressVars.l4 (v : IngressVars) (data : List UInt8) : List UInt8 :=
  data.drop (ethHlen + ip6Hlen + if v.isFrag then fragHlen else 0)

/-- What follows the new IPv4 header. -/
def ingressPayload (k : Kernel) (c : Constants) (st : IpSummed) (v : IngressVars)
    (l4 : List UInt8) : Except Counter IngressOut :=
  if v.first then ingressL4Bytes k c st v l4 else .ok (sameLength v l4)

/-- **The ingress translation** of a frame that is CLAT return traffic. -/
def ingressFrame (k : Kernel) (c : Constants) (st : IpSummed) (data : List UInt8) :
    Except Counter (Bool → List UInt8) := do
  let v ← ingressVars c data
  let out ← ingressPayload k c st v (v.l4 data)
  .ok fun present => ingressHeaders k c v data (out present).1 ++ (out present).2

/-! ## What is accepted -/

/-- **The outer headers that are read**: no extension header but one Fragment header, and no
fragment of an ICMPv6 message. -/
theorem ingressVars_eq_ok {c : Constants} {data : List UInt8} {v : IngressVars} :
    ingressVars c data = .ok v ↔
      isExtHdr v.nh = false ∧ ¬ (v.nh = ipprotoIcmpv6 ∧ v.isFrag = true) ∧
        ((Ipv6hdr.load data ethHlen).nexthdr ≠ ipprotoFragment ∧
          v = plainVars (Ipv6hdr.load data ethHlen) (Ipv6hdr.load data ethHlen).saddr
            (Ipv6hdr.load data ethHlen).daddr (inPrefix c (Ipv6hdr.load data ethHlen).saddr) ∨
        (Ipv6hdr.load data ethHlen).nexthdr = ipprotoFragment ∧
          ethHlen + ip6Hlen + fragHlen ≤ data.length ∧
          fragHlen ≤ (bpfNtohs (Ipv6hdr.load data ethHlen).payloadLen).toNat ∧
          v = fragVars (Ipv6hdr.load data ethHlen) (FragHdr.load data (ethHlen + ip6Hlen))
            (Ipv6hdr.load data ethHlen).saddr (Ipv6hdr.load data ethHlen).daddr
            (inPrefix c (Ipv6hdr.load data ethHlen).saddr)) := by
  have hchecks : ∀ w, ingressChecks w = .ok v ↔
      (isExtHdr v.nh = false ∧ ¬ (v.nh = ipprotoIcmpv6 ∧ v.isFrag = true)) ∧ w = v := by
    intro w
    rw [ingressChecks, ite_error_eq_ok, ite_error_eq_ok, Except.ok.injEq, Bool.not_eq_true]
    constructor
    · rintro ⟨h₁, h₂, rfl⟩
      exact ⟨⟨h₁, h₂⟩, rfl⟩
    · rintro ⟨⟨h₁, h₂⟩, rfl⟩
      exact ⟨h₁, h₂, rfl⟩
  rw [ingressVars, ingressHeader, bind_eq_ok]
  simp only [hchecks, ingressFragment]
  by_cases hnh : (Ipv6hdr.load data ethHlen).nexthdr = ipprotoFragment
  · rw [if_pos hnh]
    simp only [ite_error_eq_ok, Except.ok.injEq, not_lt]
    constructor
    · rintro ⟨_, ⟨hlen, hpay, rfl⟩, ⟨h₁, h₂⟩, rfl⟩
      exact ⟨h₁, h₂, Or.inr ⟨hnh, hlen, hpay, rfl⟩⟩
    · rintro ⟨h₁, h₂, ⟨hne, -⟩ | ⟨-, hlen, hpay, rfl⟩⟩
      · exact absurd hnh hne
      · exact ⟨_, ⟨hlen, hpay, rfl⟩, ⟨h₁, h₂⟩, rfl⟩
  · rw [if_neg hnh]
    simp only [Except.ok.injEq]
    constructor
    · rintro ⟨_, rfl, ⟨h₁, h₂⟩, rfl⟩
      exact ⟨h₁, h₂, Or.inl ⟨hnh, rfl⟩⟩
    · rintro ⟨h₁, h₂, ⟨-, rfl⟩ | ⟨heq, -⟩⟩
      · exact ⟨_, rfl, ⟨h₁, h₂⟩, rfl⟩
      · exact absurd heq hnh

theorem ingressFrame_eq_ok {k : Kernel} {c : Constants} {st : IpSummed} {data : List UInt8}
    {out : Bool → List UInt8} :
    ingressFrame k c st data = .ok out ↔
      ∃ v x, ingressVars c data = .ok v ∧ ingressPayload k c st v (v.l4 data) = .ok x ∧
        out = fun present => ingressHeaders k c v data (x present).1 ++ (x present).2 := by
  rw [ingressFrame]
  simp only [bind_eq_ok, Except.ok.injEq]
  constructor
  · rintro ⟨v, hv, x, hx, rfl⟩
    exact ⟨v, x, hv, hx, rfl⟩
  · rintro ⟨v, x, hv, hx, rfl⟩
    exact ⟨v, hv, x, hx, rfl⟩

/-! ## What is changed behind the header -/

section Payload

variable {k : Kernel} {c : Constants} {st : IpSummed} {v : IngressVars} {l4 : List UInt8}

theorem ingressUdpBytes_eq_ok {out : List UInt8} :
    ingressUdpBytes k c st v l4 = .ok out ↔
      8 ≤ l4.length ∧ load16 l4 6 ≠ 0 ∧
        out = updateCsum st pseudoHdrMangled0 (ingressDiff k c v) 6 l4 := by
  have h₀ : load16 (slice l4 6 2) 0 = load16 l4 6 := load16_slice (by decide)
  simp only [ingressUdpBytes, bind_eq_ok, loadAt_eq_ok, ite_error_eq_ok, csumAt_eq_ok]
  constructor
  · rintro ⟨_, ⟨hlen, rfl⟩, hnz, -, rfl⟩
    rw [h₀] at hnz
    exact ⟨hlen, hnz, rfl⟩
  · rintro ⟨hlen, hnz, rfl⟩
    exact ⟨_, ⟨hlen, rfl⟩, by rwa [h₀], hlen, rfl⟩

theorem ingressEchoBytes_eq_ok {t6 code : UInt8} {out : List UInt8} :
    ingressEchoBytes k st v t6 code l4 = .ok out ↔
      4 ≤ l4.length ∧ out = updateCsum st pseudoHdr (ingressEchoDiff k v t6 code) 2
        (splice l4 0 [echoType4 t6]) := by
  simp only [ingressEchoBytes, bind_eq_ok, storeAt_eq_ok, csumAt_eq_ok]
  constructor
  · rintro ⟨_, ⟨hlen, rfl⟩, hlen', rfl⟩
    rw [length_splice hlen] at hlen'
    exact ⟨hlen', rfl⟩
  · rintro ⟨hlen, rfl⟩
    have hone : 0 + [echoType4 t6].length ≤ l4.length :=
      singleton_fits _ (by omega)
    exact ⟨_, ⟨hone, rfl⟩, by rwa [length_splice hone], rfl⟩

theorem ingressErrorBytes_eq_ok {hdr : List UInt8} {out : IngressOut} :
    ingressErrorBytes k c st v hdr l4 = .ok out ↔
      (icmpMapOf hdr).1.ok = true ∧ ∃ q, quoteBytes c l4 = .ok q ∧
        ∃ x, innerIcmpBytes k q (errorDiff k c v q hdr) (l4.drop (q.shrink + 28)) = .ok x ∧
          out = errorOut k c st v hdr q x := by
  rw [ingressErrorBytes, ite_error_eq_ok, not_not]
  simp only [bind_eq_ok, Except.ok.injEq]
  constructor
  · rintro ⟨hok, q, hq, x, hx, rfl⟩
    exact ⟨hok, q, hq, x, hx, rfl⟩
  · rintro ⟨hok, q, hq, x, hx, rfl⟩
    exact ⟨hok, q, hq, x, hx, rfl⟩

theorem ingressIcmpBytes_eq_ok {out : IngressOut} :
    ingressIcmpBytes k c st v l4 = .ok out ↔
      8 ≤ l4.length ∧
        (IsEcho6 (load8 l4 0) ∧ out = sameLength v
            (updateCsum st pseudoHdr (ingressEchoDiff k v (load8 l4 0) (load8 l4 1)) 2
              (splice l4 0 [echoType4 (load8 l4 0)])) ∨
          ¬ IsEcho6 (load8 l4 0) ∧ ingressErrorBytes k c st v (l4.take 8) l4 = .ok out) := by
  have h₀ : load8 (slice l4 0 8) 0 = load8 l4 0 := load8_slice (by decide)
  have h₁ : load8 (slice l4 0 8) 1 = load8 l4 1 := load8_slice (by decide)
  rw [ingressIcmpBytes, bind_eq_ok]
  simp only [loadAt_eq_ok]
  constructor
  · rintro ⟨_, ⟨hlen, rfl⟩, h⟩
    refine ⟨hlen, ?_⟩
    rw [h₀, h₁] at h
    by_cases hecho : IsEcho6 (load8 l4 0)
    · rw [if_pos hecho, bind_eq_ok] at h
      obtain ⟨l4', hl4', hout⟩ := h
      obtain ⟨-, rfl⟩ := ingressEchoBytes_eq_ok.mp hl4'
      exact Or.inl ⟨hecho, (Except.ok.inj hout).symm⟩
    · rw [if_neg hecho] at h
      exact Or.inr ⟨hecho, h⟩
  · rintro ⟨hlen, ⟨hecho, rfl⟩ | ⟨hecho, h⟩⟩
    · refine ⟨_, ⟨hlen, rfl⟩, ?_⟩
      rw [h₀, h₁, if_pos hecho, bind_eq_ok]
      exact ⟨_, ingressEchoBytes_eq_ok.mpr ⟨by omega, rfl⟩, rfl⟩
    · refine ⟨_, ⟨hlen, rfl⟩, ?_⟩
      rw [h₀, h₁, if_neg hecho]
      exact h

/-- Whether the packet is an ICMPv6 error, to be translated with its quote. -/
def IngressVars.IsError (v : IngressVars) (l4 : List UInt8) : Prop :=
  v.first = true ∧ v.nh = ipprotoIcmpv6 ∧ ¬ IsEcho6 (load8 l4 0)

/-- The positions of the transport header that ingress rewrites in a packet that is not an ICMPv6
error: the checksum, and the type of an ICMPv6 message. -/
def ingressEdits (v : IngressVars) (i : ℕ) : Prop :=
  v.first = true ∧
    (v.nh = ipprotoTcp ∧ (i = 16 ∨ i = 17) ∨ v.nh = ipprotoUdp ∧ (i = 6 ∨ i = 7) ∨
      v.nh = ipprotoIcmpv6 ∧ (i = 0 ∨ i = 2 ∨ i = 3))

/-- **What becomes of the payload.**  A packet that is not an ICMPv6 error keeps its length and
every byte outside those positions; an error is translated with its quote. -/
theorem ingressPayload_cases {out : IngressOut} (h : ingressPayload k c st v l4 = .ok out) :
    (¬ v.IsError l4 ∧ ∃ l4', out = sameLength v l4' ∧ SameExcept (ingressEdits v) l4 l4') ∨
      v.IsError l4 ∧ 8 ≤ l4.length ∧ ingressErrorBytes k c st v (l4.take 8) l4 = .ok out := by
  rw [ingressPayload] at h
  by_cases hfirst : v.first
  swap
  · rw [if_neg hfirst] at h
    cases h
    exact Or.inl ⟨fun he => hfirst he.1, l4, rfl, SameExcept.refl _ _⟩
  rw [if_pos hfirst, ingressL4Bytes] at h
  split at h
  · next hp =>
    obtain ⟨l4', hl4', hout⟩ := bind_eq_ok.mp h
    obtain ⟨hlen, rfl⟩ := csumAt_eq_ok.mp hl4'
    refine Or.inl ⟨fun he => absurd (hp.symm.trans he.2.1) (by decide), _,
      (Except.ok.inj hout).symm, SameExcept.splice hlen fun i h₁ h₂ => ⟨hfirst, Or.inl ⟨hp, ?_⟩⟩⟩
    rw [length_le16Bytes] at h₂
    omega
  split at h
  · next hp =>
    obtain ⟨l4', hl4', hout⟩ := bind_eq_ok.mp h
    obtain ⟨hlen, -, rfl⟩ := ingressUdpBytes_eq_ok.mp hl4'
    refine Or.inl ⟨fun he => absurd (hp.symm.trans he.2.1) (by decide), _,
      (Except.ok.inj hout).symm,
      SameExcept.splice hlen fun i h₁ h₂ => ⟨hfirst, Or.inr (Or.inl ⟨hp, ?_⟩)⟩⟩
    rw [length_le16Bytes] at h₂
    omega
  split at h
  · next hp =>
    obtain ⟨hlen, ⟨hecho, rfl⟩ | ⟨hecho, herr⟩⟩ := ingressIcmpBytes_eq_ok.mp h
    · have hone : 0 + [echoType4 (load8 l4 0)].length ≤ l4.length :=
        singleton_fits _ (by omega)
      refine Or.inl ⟨fun he => he.2.2 hecho, _, rfl, (SameExcept.splice hone fun i _ h₂ => ?_).trans
        (SameExcept.splice ?_ fun i h₁ h₂ => ?_)⟩
      · rw [List.length_singleton] at h₂
        exact ⟨hfirst, Or.inr (Or.inr ⟨hp, by omega⟩)⟩
      · rw [length_splice hone, length_le16Bytes]
        omega
      · rw [length_le16Bytes] at h₂
        exact ⟨hfirst, Or.inr (Or.inr ⟨hp, by omega⟩)⟩
    · exact Or.inr ⟨⟨hfirst, hp, hecho⟩, hlen, herr⟩
  · next hp =>
    cases h
    exact Or.inl ⟨fun he => hp he.2.1, l4, rfl, SameExcept.refl _ _⟩

end Payload

/-! ## The new ICMPv4 message -/

/-- An error becomes one of the three ICMPv4 errors: Destination Unreachable, Time Exceeded or
Parameter Problem. -/
theorem icmp6ToIcmp4_type {type code : UInt8} {pointer6 pointer4 : UInt32}
    (h : (icmp6ToIcmp4 type code pointer6 pointer4).1.ok = true) :
    (icmp6ToIcmp4 type code pointer6 pointer4).1.type = 3 ∨
      (icmp6ToIcmp4 type code pointer6 pointer4).1.type = 11 ∨
      (icmp6ToIcmp4 type code pointer6 pointer4).1.type = 12 := by
  revert h
  rw [icmp6ToIcmp4]
  split
  · exact fun _ => Or.inl rfl
  split
  · exact fun _ => Or.inl rfl
  split
  · exact fun _ => Or.inr (Or.inl rfl)
  split
  swap
  · exact fun h => absurd h Bool.false_ne_true
  -- Parameter Problem: an unknown next header is unreachable, the others point into the header
  split
  · exact fun _ => Or.inl rfl
  split
  · exact fun h => absurd h Bool.false_ne_true
  split
  · exact fun _ => Or.inr (Or.inr rfl)
  · exact fun h => absurd h Bool.false_ne_true

/-- `icmp` is the ICMPv4 header for the ICMPv6 header `hdr`, whatever its checksum. -/
structure IcmpHeaderOf (hdr : List UInt8) (inFrag : Bool) (icmp : Icmphdr) : Prop where
  type : icmp.type = (icmpMapOf hdr).1.type
  code : icmp.code = (icmpMapOf hdr).1.code
  un : icmp.un = (newIcmp4 (icmpMapOf hdr).1 (icmpMapOf hdr).2 (load8 hdr 0) (load32 hdr 4)
    inFrag).un

/-- **The message, part by part**: the new ICMPv4 header with some checksum, the embedded IPv4
header, and the quoted transport bytes. -/
theorem errorMessage_eq (k : Kernel) (c : Constants) (st : IpSummed) (q : Quote)
    (hdr : List UInt8) (x : List UInt8 × UInt32) :
    ∃ icmp : Icmphdr, IcmpHeaderOf hdr q.inFrag icmp ∧
      errorMessage k c st q hdr x = icmp.bytes ++ ((q.in4 k c).bytes ++ x.1) := by
  let icmp := newIcmp4 (icmpMapOf hdr).1 (icmpMapOf hdr).2 (load8 hdr 0) (load32 hdr 4) q.inFrag
  refine ⟨⟨icmp.type, icmp.code,
    l4CsumField st pseudoHdr (load16 (q.newBytes k c hdr ++ x.1) 2) x.2, icmp.un⟩,
    ⟨rfl, rfl, rfl⟩, ?_⟩
  have hnew : q.newBytes k c hdr ++ x.1 = [icmp.type, icmp.code] ++ (le16Bytes icmp.checksum ++
      (icmp.un.bytes ++ ((q.in4 k c).bytes ++ x.1))) := by
    rw [Quote.newBytes, Icmphdr.bytes, List.append_assoc, List.append_assoc, List.append_assoc]
  have hsplice : ∀ w, splice (q.newBytes k c hdr ++ x.1) 2 (le16Bytes w) =
      [icmp.type, icmp.code] ++ (le16Bytes w ++ (icmp.un.bytes ++ ((q.in4 k c).bytes ++ x.1))) := by
    intro w
    rw [hnew]
    refine splice_append ?_ ?_ _
    · rfl
    · rfl
  rw [errorMessage, updateCsum, hsplice, Icmphdr.bytes, List.append_assoc, List.append_assoc]

/-! ## The quoted transport bytes -/

section Quoted

variable {k : Kernel} {c : Constants} {q : Quote} {d : UInt32} {inner : List UInt8}

/-- The quoted echo with its new type and checksum. -/
def innerEcho4 (k : Kernel) (q : Quote) (inner : List UInt8) : List UInt8 :=
  splice (splice inner 0 [innerEchoType (load8 inner 0)]) 2
    (le16Bytes (innerNc (innerEchoDiff k q (load8 inner 0) (load8 inner 1)) (load16 inner 2)))

theorem innerEchoBytes_eq_ok {x : List UInt8 × UInt32} :
    innerEchoBytes k q d inner = .ok x ↔
      2 ≤ inner.length ∧ (¬ IsEcho6 (load8 inner 0) ∧ x = (inner, d) ∨
        IsEcho6 (load8 inner 0) ∧ 4 ≤ inner.length ∧
          x = (innerEcho4 k q inner,
            innerEchoOuter k (load8 inner 0) (load8 inner 1) (load16 inner 2)
            (innerNc (innerEchoDiff k q (load8 inner 0) (load8 inner 1)) (load16 inner 2)) d)) := by
  have h₀ : load8 (slice inner 0 2) 0 = load8 inner 0 := load8_slice (by decide)
  have h₁ : load8 (slice inner 0 2) 1 = load8 inner 1 := load8_slice (by decide)
  have h₂ : load16 (slice inner 2 2) 0 = load16 inner 2 := load16_slice (by decide)
  rw [innerEchoBytes, bind_eq_ok]
  simp only [loadAt_eq_ok]
  constructor
  · rintro ⟨_, ⟨hlen, rfl⟩, h⟩
    refine ⟨hlen, ?_⟩
    rw [h₀, h₁] at h
    by_cases hecho : load8 inner 0 = icmpv6EchoRequest ∨ load8 inner 0 = icmpv6EchoReply
    · rw [if_pos hecho] at h
      simp only [bind_eq_ok, loadAt_eq_ok, storeAt_eq_ok] at h
      obtain ⟨_, ⟨hlen', rfl⟩, _, ⟨-, rfl⟩, _, ⟨-, rfl⟩, h⟩ := h
      rw [h₂] at h
      exact Or.inr ⟨hecho.symm, hlen', (Except.ok.inj h).symm⟩
    · rw [if_neg hecho] at h
      exact Or.inl ⟨fun he => hecho he.symm, (Except.ok.inj h).symm⟩
  · rintro ⟨hlen, ⟨hecho, rfl⟩ | ⟨hecho, hlen', rfl⟩⟩
    · refine ⟨_, ⟨hlen, rfl⟩, ?_⟩
      rw [h₀, if_neg fun he => hecho he.symm]
    · have hone : 0 + [innerEchoType (load8 inner 0)].length ≤ inner.length :=
        singleton_fits _ (by omega)
      refine ⟨_, ⟨hlen, rfl⟩, ?_⟩
      rw [h₀, h₁, if_pos hecho.symm]
      simp only [bind_eq_ok, loadAt_eq_ok, storeAt_eq_ok]
      refine ⟨_, ⟨hlen', rfl⟩, _, ⟨hone, rfl⟩, _, ⟨?_, rfl⟩, ?_⟩
      · rw [length_splice hone, length_le16Bytes]
        exact hlen'
      · rw [h₂]
        rfl

/-- The positions of the quoted transport header that ingress rewrites: type and checksum of an
echo that is no fragment, the checksum of TCP and UDP. -/
def quoteEdits (q : Quote) (i : ℕ) : Prop :=
  q.inNh = ipprotoIcmpv6 ∧ q.inFrag = false ∧ (i = 0 ∨ i = 2 ∨ i = 3) ∨
    innerCoff q.inNh ≠ 0 ∧ q.inFrag4 &&& ipOffset = 0 ∧
      (i = innerCoff q.inNh ∨ i = innerCoff q.inNh + 1)

theorem innerIcmpBytes_sameExcept {x : List UInt8 × UInt32}
    (h : innerIcmpBytes k q d inner = .ok x) : SameExcept (quoteEdits q) inner x.1 := by
  rw [innerIcmpBytes] at h
  by_cases hicmp : q.inNh = ipprotoIcmpv6 ∧ ¬ q.inFrag = true
  swap
  · rw [if_neg hicmp] at h
    cases h
    exact SameExcept.refl _ _
  have hedit : ∀ i, i = 0 ∨ i = 2 ∨ i = 3 → quoteEdits q i := fun i hi =>
    Or.inl ⟨hicmp.1, Bool.eq_false_iff.mpr hicmp.2, hi⟩
  rw [if_pos hicmp, innerEchoBytes_eq_ok] at h
  obtain ⟨-, ⟨-, rfl⟩ | ⟨-, hlen, rfl⟩⟩ := h
  · exact SameExcept.refl _ _
  · have hone : 0 + [innerEchoType (load8 inner 0)].length ≤ inner.length :=
      singleton_fits _ (by omega)
    refine (SameExcept.splice hone fun i _ h₂ => hedit i ?_).trans
      (SameExcept.splice ?_ fun i h₁ h₂ => hedit i ?_)
    · rw [List.length_singleton] at h₂
      omega
    · rwa [length_splice hone]
    · rw [length_le16Bytes] at h₂
      omega

theorem innerCsumBytes_sameExcept (present : Bool) :
    SameExcept (quoteEdits q) inner (innerCsumBytes k c q d inner present).1 := by
  rw [innerCsumBytes]
  split
  · next h =>
    refine SameExcept.splice h.2.1.2 fun i h₁ h₂ => Or.inr ⟨h.1.1, h.1.2, ?_⟩
    rw [length_le16Bytes] at h₂
    omega
  · exact SameExcept.refl _ _

/-- **What an error becomes**: an ICMPv4 error that embeds an IPv4 header and the quoted transport
bytes, of which only those positions may have changed. -/
theorem ingressErrorBytes_parts {st : IpSummed} {v : IngressVars} {hdr l4 : List UInt8}
    {x : IngressOut} (h : ingressErrorBytes k c st v hdr l4 = .ok x) (present : Bool) :
    ∃ (q : Quote) (icmp : Icmphdr) (rest : List UInt8), quoteBytes c l4 = .ok q ∧
      (icmpMapOf hdr).1.ok = true ∧ IcmpHeaderOf hdr q.inFrag icmp ∧
      SameExcept (quoteEdits q) (l4.drop (q.shrink + 28)) rest ∧
      x present =
        (v.totLen - UInt16.ofNat q.shrink, icmp.bytes ++ ((q.in4 k c).bytes ++ rest)) := by
  obtain ⟨hok, q, hq, y, hy, rfl⟩ := ingressErrorBytes_eq_ok.mp h
  obtain ⟨icmp, hicmp, hmsg⟩ :=
    errorMessage_eq k c st q hdr (innerCsumBytes k c q y.2 y.1 present)
  refine ⟨q, icmp, (innerCsumBytes k c q y.2 y.1 present).1, hq, hok, hicmp,
    (innerIcmpBytes_sameExcept hy).trans (innerCsumBytes_sameExcept present), ?_⟩
  rw [errorOut, hmsg]

end Quoted

/-! ## Lengths -/

theorem length_ingressHeaders {k : Kernel} {c : Constants} {v : IngressVars} {data : List UInt8}
    {totLen : UInt16} (h : 12 ≤ data.length) :
    (ingressHeaders k c v data totLen).length = ingressL4off := by
  rw [ingressHeaders, List.length_append, List.length_append, List.length_take, length_le16Bytes,
    Iphdr.length_bytes]
  simp only [ingressL4off, ethHlen, ip4Hlen]
  omega

end CiliumClat
