import CiliumClat.Datapath.Egress

/-!
# `clat_ingress`: IPv6 to IPv4

The ingress half of `bpf/clat.c`, in the order of the source.  The body of `clat_ingress` is
cut where the source has its paragraphs:

* `ingressMatch`: is this CLAT return traffic?  Everything else passes; from here on every
  exit is a drop or a translation.
* `ingressHeader`: the IPv6 header and the Fragment header are read and checked;
* `ingressReshape`: Fragment header out, IPv4 header in, EtherType rewritten;
* `ingressL4`: the transport checksum, ICMP echo, and ICMPv6 errors;
* `ingressError`: an ICMPv6 error with the packet it quotes.
-/

namespace CiliumClat

open ByteList OnesComplement EarlyExit

/-! ## RFC 7915 section 5.2 -/

/-- `struct icmp_map`. -/
structure IcmpMap where
  type : UInt8
  code : UInt8
  ok : Bool
  deriving DecidableEq, Repr

/-- The pointer of a Parameter Problem: the field of the IPv4 header that holds what the IPv6
header has at `pointer6`. -/
def mapPointer (pointer6 : UInt32) : Option UInt32 :=
  if pointer6 = 0 then some 0
  else if pointer6 = 4 then some 2
  else if pointer6 = 6 then some 9
  else if pointer6 = 7 then some 8
  else if pointer6 = 8 then some 12
  else if pointer6 = 24 then some 16
  else none

/-- The code of a Destination Unreachable. -/
def mapUnreach (code : UInt8) : UInt8 :=
  -- ICMPV6_NOROUTE, ICMPV6_NOT_NEIGHBOUR, ICMPV6_ADDR_UNREACH: ICMP_HOST_UNREACH
  if code = 0 ∨ code = 2 ∨ code = 3 then 1
  -- ICMPV6_ADM_PROHIBITED, ICMPV6_POLICY_FAIL, ICMPV6_REJECT_ROUTE: ICMP_HOST_ANO
  else if code = 1 ∨ code = 5 ∨ code = 6 then 10
  -- ICMPV6_PORT_UNREACH: ICMP_PORT_UNREACH
  else if code = 4 then 3
  else 1

/-- `icmp6_to_icmp4`, with the value it leaves in `*pointer4`. -/
def icmp6ToIcmp4 (type code : UInt8) (pointer6 pointer4 : UInt32) : IcmpMap × UInt32 :=
  -- ICMPV6_DEST_UNREACH
  if type = 1 then (⟨3, mapUnreach code, true⟩, pointer4)
  -- ICMPV6_PKT_TOOBIG
  else if type = 2 then (⟨3, 4, true⟩, pointer4)
  -- ICMPV6_TIME_EXCEED
  else if type = 3 then (⟨11, code, true⟩, pointer4)
  -- ICMPV6_PARAMPROB
  else if type = 4 then
    if code = 1 then (⟨3, 2, true⟩, pointer4)
    else if code ≠ 0 then (⟨0, 0, false⟩, pointer4)
    else
      match mapPointer pointer6 with
      | some p => (⟨12, 0, true⟩, p)
      | none => (⟨12, 0, false⟩, pointer4)
  else (⟨0, 0, false⟩, pointer4)

/-! ## The match -/

/-- A source outside the prefix: the only packets of interest are ICMPv6 errors from routers on
the path that quote a CLAT flow. -/
def ingressRouterError (k : Kernel) (c : Constants) (ip6 : Ipv6hdr) : Clat Unit := do
  if ip6.nexthdr ≠ ipprotoIcmpv6 then
    throw .ok
  else if ← ensureLinear k (ethHlen + ip6Hlen + 8 + ip6Hlen) then
    let s ← get
    let in6 := Ipv6hdr.load s.skb.data (ethHlen + ip6Hlen + 8)
    if ethHlen + ip6Hlen + 8 + ip6Hlen > s.skb.headlen then
      throw .ok
    else if load8 s.skb.data (ethHlen + ip6Hlen) < 1 ∨ load8 s.skb.data (ethHlen + ip6Hlen) > 4 then
      throw .ok
    else if in6.version ≠ 6 ∨ ¬ addr6Eq in6.saddr c.podIp6 ∨ ¬ inPrefix c in6.daddr then
      throw .ok
    else
      return ()
  else
    throw .ok

/-- The test for CLAT return traffic on a frame whose first 62 bytes are linear: the outer
addresses, and whether the source is in the prefix. -/
def ingressClassify (k : Kernel) (c : Constants) : Clat (In6Addr × In6Addr × Bool) := do
  let s ← get
  let ip6 := Ipv6hdr.load s.skb.data ethHlen
  if ethHlen + ip6Hlen > s.skb.headlen then
    throw .ok
  else if ip6.version ≠ 6 then
    throw .ok
  else if ¬ addr6Eq ip6.daddr c.podIp6 then
    throw .ok
  else if inPrefix c ip6.saddr then
    return (ip6.saddr, ip6.daddr, true)
  else
    ingressRouterError k c ip6
    return (ip6.saddr, ip6.daddr, false)

/-- The test for CLAT return traffic. -/
def ingressMatch (k : Kernel) (c : Constants) : Clat (In6Addr × In6Addr × Bool) := do
  let s ← get
  if ethHlen > s.skb.headlen then
    throw .ok
  else if load16 s.skb.data 12 ≠ bpfHtons ethPIpv6 then
    throw .ok
  else if ← ensureLinear k (ethHlen + ip6Hlen + fragHlen) then
    ingressClassify k c
  else
    -- shorter than 62 bytes: may still be a valid packet for the pod
    throw .ok

/-! ## The outer header -/

/-- The local variables of `clat_ingress` once the IPv6 header has been read. -/
structure IngressVars where
  saddr6 : In6Addr
  daddr6 : In6Addr
  srcMapped : Bool
  tos : UInt8
  hop : UInt8
  nh : UInt8
  payloadLen : ℕ
  id : UInt16
  frag4 : UInt16
  isFrag : Bool
  first : Bool
  deriving DecidableEq, Repr

/-- A Fragment header as IPv4 flags and offset. -/
def frag4Of (fo : UInt16) : UInt16 :=
  fo >>> (3 : UInt16) ||| if fo &&& 1 ≠ 0 then ipMf else 0

/-- The local variables of a packet without a Fragment header. -/
def plainVars (ip6 : Ipv6hdr) (saddr6 daddr6 : In6Addr) (srcMapped : Bool) : IngressVars where
  saddr6 := saddr6
  daddr6 := daddr6
  srcMapped := srcMapped
  tos := (bpfNtohl ip6.vtcFlow >>> (20 : UInt32)).toUInt8
  hop := ip6.hopLimit
  nh := ip6.nexthdr
  payloadLen := (bpfNtohs ip6.payloadLen).toNat
  id := 0
  frag4 := ipDf
  isFrag := false
  first := true

/-- The local variables of a packet with the Fragment header `fh`. -/
def fragVars (ip6 : Ipv6hdr) (fh : FragHdr) (saddr6 daddr6 : In6Addr) (srcMapped : Bool) :
    IngressVars where
  saddr6 := saddr6
  daddr6 := daddr6
  srcMapped := srcMapped
  tos := (bpfNtohl ip6.vtcFlow >>> (20 : UInt32)).toUInt8
  hop := ip6.hopLimit
  nh := fh.nexthdr
  payloadLen := (bpfNtohs ip6.payloadLen).toNat - fragHlen
  id := (bpfNtohl fh.identification).toUInt16
  frag4 := frag4Of (bpfNtohs fh.fragOff)
  isFrag := true
  first := bpfNtohs fh.fragOff >>> (3 : UInt16) == 0

/-- Read the IPv6 header, and the Fragment header if there is one, from the frame `data` of which
the first `headlen` bytes are linear. -/
def ingressFragment (data : List UInt8) (headlen : ℕ) (saddr6 daddr6 : In6Addr)
    (srcMapped : Bool) : Except Counter IngressVars :=
  let ip6 := Ipv6hdr.load data ethHlen
  if ip6.nexthdr = ipprotoFragment then
    if ethHlen + ip6Hlen + fragHlen > headlen then .error .ingressDropTruncated
    else if (bpfNtohs ip6.payloadLen).toNat < fragHlen then .error .ingressDropTruncated
    else .ok (fragVars ip6 (FragHdr.load data (ethHlen + ip6Hlen)) saddr6 daddr6 srcMapped)
  else
    .ok (plainVars ip6 saddr6 daddr6 srcMapped)

/-- The checks on the headers read. -/
def ingressChecks (v : IngressVars) : Except Counter IngressVars :=
  if isExtHdr v.nh then .error .ingressDropExthdr
  -- the ICMPv4 checksum needs the length of the whole datagram to strip the pseudo-header
  else if v.nh = ipprotoIcmpv6 ∧ v.isFrag then .error .ingressDropFragIcmp
  else .ok v

/-- The outer headers, read and checked. -/
def ingressHeader (data : List UInt8) (headlen : ℕ) (saddr6 daddr6 : In6Addr)
    (srcMapped : Bool) : Except Counter IngressVars :=
  ingressFragment data headlen saddr6 daddr6 srcMapped >>= ingressChecks

/-- `proto4`. -/
def IngressVars.proto4 (v : IngressVars) : UInt8 :=
  if v.nh = ipprotoIcmpv6 then ipprotoIcmp else v.nh

/-- `tot_len`, a 16-bit variable. -/
def IngressVars.totLen (v : IngressVars) : UInt16 :=
  UInt16.ofNat (v.payloadLen + ip4Hlen)

/-- An IPv4 header with its checksum filled in. -/
def withCheck (k : Kernel) (h : Iphdr) : Iphdr :=
  { h with check := csumFold (k.csumDiff [] { h with check := 0 }.bytes 0) }

/-- The IPv4 header `h4`, for a given total length. -/
def IngressVars.h4 (k : Kernel) (c : Constants) (v : IngressVars) (totLen : UInt16) : Iphdr :=
  withCheck k {
    version := 4
    ihl := 5
    tos := v.tos
    totLen := bpfHtons totLen
    id := bpfHtons v.id
    fragOff := bpfHtons v.frag4
    ttl := v.hop
    protocol := v.proto4
    check := 0
    saddr := if v.srcMapped then v.saddr6.w3 else c.errIp4
    daddr := c.podIp4 }

/-- Reshape the packet and write the new header. -/
def ingressReshape (k : Kernel) (c : Constants) (v : IngressVars) : Clat Unit := do
  if v.isFrag then
    orDrop (bpfSkbAdjustRoom k (-(fragHlen : ℤ)) .net roomFlags) .ingressDropHelper
  orDrop (bpfSkbChangeProto k (bpfHtons ethPIp)) .ingressDropHelper
  orDrop (bpfSkbStoreBytes k ethHlen (v.h4 k c v.totLen).bytes storeFlags) .ingressDropHelper
  orDrop (bpfSkbStoreBytes k 12 (le16Bytes (bpfHtons ethPIp)) false) .ingressDropHelper

/-- `l4off`. -/
abbrev ingressL4off : ℕ := ethHlen + ip4Hlen

/-! ## TCP, UDP and echo -/

/-- The address difference for TCP and UDP. -/
def ingressDiff (k : Kernel) (c : Constants) (v : IngressVars) : UInt32 :=
  k.csumDiff ((prefixCopy v.saddr6).bytes ++ (prefixCopy v.daddr6).bytes)
    (le32Bytes (v.h4 k c v.totLen).saddr ++ le32Bytes (v.h4 k c v.totLen).daddr) 0

/-- `case IPPROTO_UDP`. -/
def ingressUdp (k : Kernel) (c : Constants) (v : IngressVars) : Clat Unit := do
  match ← bpfSkbLoadBytes k (ingressL4off + 6) 2 with
  | none => drop .ingressDropTruncated
  | some check =>
    if load16 check 0 = 0 then
      drop .ingressDropUdpZeroCsum
    else
      orDrop (bpfL4CsumReplace k (ingressL4off + 6) 0 (ingressDiff k c v) pseudoHdrMangled0)
        .ingressDropHelper

/-- The difference that removes the ICMPv6 pseudo-header. -/
def ingressIcmpDiff (k : Kernel) (v : IngressVars) : UInt32 :=
  let p6 : Pseudo6 := {
    saddr := prefixCopy v.saddr6
    daddr := prefixCopy v.daddr6
    len := bpfHtonl (UInt32.ofNat v.payloadLen)
    nexthdr := bpfHtonl ipprotoIcmpv6.toUInt32 }
  k.csumDiff p6.bytes [] 0

/-- The ICMPv4 type of an ICMPv6 echo. -/
def echoType4 (t6 : UInt8) : UInt8 :=
  if t6 = icmpv6EchoReply then icmpEchoreply else icmpEcho

/-- The checksum difference of an echo: the pseudo-header out, the type changed. -/
def ingressEchoDiff (k : Kernel) (v : IngressVars) (t6 code : UInt8) : UInt32 :=
  k.csumDiff (le32Bytes (typeWord t6 code)) (le32Bytes (typeWord (echoType4 t6) code))
    (ingressIcmpDiff k v)

/-- ICMPv6 echo request or reply. -/
def ingressEcho (k : Kernel) (v : IngressVars) (t6 code : UInt8) : Clat Unit := do
  orDrop (bpfSkbStoreBytes k ingressL4off [echoType4 t6] storeFlags) .ingressDropHelper
  orDrop (bpfL4CsumReplace k (ingressL4off + 2) 0 (ingressEchoDiff k v t6 code) pseudoHdr)
    .ingressDropHelper

/-! ## ICMPv6 errors -/

/-- What is read of the quoted packet: its IPv6 header, its Fragment header if it has one, and
the fields of the IPv4 header that come from them. -/
structure Quote where
  in6 : Ipv6hdr
  infh : FragHdr
  inFrag : Bool
  inNh : UInt8
  inId : UInt16
  inFrag4 : UInt16
  deriving DecidableEq, Repr

/-- A quote without a Fragment header. -/
def plainQuote (in6 : Ipv6hdr) : Quote where
  in6 := in6
  infh := ⟨0, 0, 0, 0⟩
  inFrag := false
  inNh := in6.nexthdr
  inId := 0
  inFrag4 := ipDf

/-- A quote with the Fragment header `infh`. -/
def fragQuote (in6 : Ipv6hdr) (infh : FragHdr) : Quote where
  in6 := in6
  infh := infh
  inFrag := true
  inNh := infh.nexthdr
  inId := (bpfNtohl infh.identification).toUInt16
  inFrag4 := frag4Of (bpfNtohs infh.fragOff)

/-- The quoted Fragment header. -/
def ingressQuoteFragment (k : Kernel) (in6 : Ipv6hdr) : Clat Quote := do
  if in6.nexthdr = ipprotoFragment then
    match ← bpfSkbLoadBytes k (ingressL4off + (8 + ip6Hlen)) fragHlen with
    | none => drop .ingressDropIcmpInner
    | some b => return fragQuote in6 (FragHdr.load b 0)
  else
    return plainQuote in6

/-- The quoted IPv6 header: the quote must be a packet of the pod to the prefix. -/
def ingressQuote (k : Kernel) (c : Constants) : Clat Quote := do
  match ← bpfSkbLoadBytes k (ingressL4off + 8) ip6Hlen with
  | none => drop .ingressDropIcmpInner
  | some b =>
    let in6 := Ipv6hdr.load b 0
    if in6.version ≠ 6 ∨ ¬ addr6Eq in6.saddr c.podIp6 ∨ ¬ inPrefix c in6.daddr then
      drop .ingressDropIcmpInner
    else
      let q ← ingressQuoteFragment k in6
      if isExtHdr q.inNh then
        drop .ingressDropIcmpInner
      else
        return q

/-- The MTU of a Packet Too Big, as an IPv4 MTU. -/
def mtu4 (mtu : ℕ) (inFrag : Bool) : ℕ :=
  let hdrdiff := ip6Hlen - ip4Hlen + if inFrag then fragHlen else 0
  let mtu := if mtu > 0xffff then 0xffff else mtu
  if mtu > hdrdiff + 68 then mtu - hdrdiff else 68

/-- The new ICMPv4 header, its checksum still zero. -/
def newIcmp4 (m : IcmpMap) (pointer4 : UInt32) (t6 : UInt8) (rest : UInt32) (inFrag : Bool) :
    Icmphdr where
  type := m.type
  code := m.code
  checksum := 0
  un :=
    if t6 = 2 then .frag 0 (bpfHtons (UInt16.ofNat (mtu4 (bpfNtohl rest).toNat inFrag)))
    else if m.type = 12 then .gateway (bpfHtonl (pointer4 <<< (24 : UInt32)))
    else .gateway 0

/-- The bytes by which an error shrinks. -/
def Quote.shrink (q : Quote) : ℕ :=
  if q.inFrag then 28 else 20

/-- The new embedded IPv4 header. -/
def Quote.in4 (k : Kernel) (c : Constants) (q : Quote) : Iphdr :=
  withCheck k {
    version := 4
    ihl := 5
    tos := (bpfNtohl q.in6.vtcFlow >>> (20 : UInt32)).toUInt8
    totLen := bpfHtons (UInt16.ofNat ((bpfNtohs q.in6.payloadLen).toNat + ip4Hlen
      - if q.inFrag then fragHlen else 0))
    id := bpfHtons q.inId
    fragOff := bpfHtons q.inFrag4
    ttl := q.in6.hopLimit
    protocol := if q.inNh = ipprotoIcmpv6 then ipprotoIcmp else q.inNh
    check := 0
    saddr := c.podIp4
    daddr := q.in6.daddr.w3 }

/-- The bytes `old` that leave the packet: ICMPv6 header, quoted IPv6 header and, if there is
one, its Fragment header. -/
def Quote.oldBytes (q : Quote) (hdr : List UInt8) : List UInt8 :=
  hdr ++ (q.in6.bytes ++ if q.inFrag then q.infh.bytes else [])

/-- `icmp6_to_icmp4` of the ICMPv6 header `hdr`. -/
def icmpMapOf (hdr : List UInt8) : IcmpMap × UInt32 :=
  icmp6ToIcmp4 (load8 hdr 0) (load8 hdr 1) (bpfNtohl (load32 hdr 4)) 0

/-- The bytes `new` that take their place: ICMPv4 header and embedded IPv4 header. -/
def Quote.newBytes (k : Kernel) (c : Constants) (q : Quote) (hdr : List UInt8) : List UInt8 :=
  (newIcmp4 (icmpMapOf hdr).1 (icmpMapOf hdr).2 (load8 hdr 0) (load32 hdr 4) q.inFrag).bytes ++
    (q.in4 k c).bytes

/-- The outer checksum difference `d`: old bytes (and the pseudo-header, already in the seed)
out, new bytes in. -/
def errorDiff (k : Kernel) (c : Constants) (v : IngressVars) (q : Quote) (hdr : List UInt8) :
    UInt32 :=
  k.csumDiff (q.oldBytes hdr) (q.newBytes k c hdr) (ingressIcmpDiff k v)

/-! ### The quoted transport header -/

/-- The offset of the quoted transport header. -/
abbrev innerL4off : ℕ := ingressL4off + 28

/-- The outer checksum difference after the 16-bit word `oc` of the packet became `nc`. -/
def word16Diff (k : Kernel) (oc nc : UInt16) (d : UInt32) : UInt32 :=
  k.csumDiff (le32Bytes (word16 oc)) (le32Bytes (word16 nc)) d

/-- The ICMPv4 type of a quoted ICMPv6 echo. -/
def innerEchoType (t : UInt8) : UInt8 :=
  if t = icmpv6EchoRequest then icmpEcho else icmpEchoreply

/-- `idiff`: what the checksum of a quoted echo loses and gains. -/
def innerEchoDiff (k : Kernel) (q : Quote) (t code : UInt8) : UInt32 :=
  let ip6 : Pseudo6 := {
    saddr := prefixCopy q.in6.saddr
    daddr := prefixCopy q.in6.daddr
    len := bpfHtonl (bpfNtohs q.in6.payloadLen).toUInt32
    nexthdr := bpfHtonl ipprotoIcmpv6.toUInt32 }
  k.csumDiff (le32Bytes (typeWord t code)) (le32Bytes (typeWord (innerEchoType t) code))
    (k.csumDiff ip6.bytes [] 0)

/-- `nc`, the open-coded update of the quoted checksum `oc`. -/
def innerNc (diff : UInt32) (oc : UInt16) : UInt16 :=
  csumFold (diff + (~~~oc).toUInt32)

/-- The outer checksum difference after the type and the checksum of the quoted echo changed. -/
def innerEchoOuter (k : Kernel) (t code : UInt8) (oc nc : UInt16) (d : UInt32) : UInt32 :=
  word16Diff k oc nc
    (k.csumDiff (le32Bytes (typeWord t code)) (le32Bytes (typeWord (innerEchoType t) code)) d)

/-- The embedded echo: its type, and its checksum without the pseudo-header.  Both changes are
fed to the outer checksum difference `d`. -/
def ingressInnerEcho (k : Kernel) (q : Quote) (d : UInt32) : Clat UInt32 := do
  match ← bpfSkbLoadBytes k innerL4off 2 with
  | none => drop .ingressDropIcmpInner
  | some it =>
    if load8 it 0 = icmpv6EchoRequest ∨ load8 it 0 = icmpv6EchoReply then
      match ← bpfSkbLoadBytes k (innerL4off + 2) 2 with
      | none => drop .ingressDropIcmpInner
      | some oc =>
        let nc := innerNc (innerEchoDiff k q (load8 it 0) (load8 it 1)) (load16 oc 0)
        orDrop (bpfSkbStoreBytes k innerL4off [innerEchoType (load8 it 0)] storeFlags)
          .ingressDropHelper
        orDrop (bpfSkbStoreBytes k (innerL4off + 2) (le16Bytes nc) storeFlags)
          .ingressDropHelper
        return innerEchoOuter k (load8 it 0) (load8 it 1) (load16 oc 0) nc d
    else
      return d

/-- The embedded packet of an ICMPv6 message that is not a fragment; the checksum of a fragment is
not computable. -/
def ingressInnerIcmp (k : Kernel) (q : Quote) (d : UInt32) : Clat UInt32 :=
  if q.inNh = ipprotoIcmpv6 ∧ ¬ q.inFrag then ingressInnerEcho k q d else pure d

/-- `coff`: where the quoted TCP or UDP header has its checksum; zero for other protocols. -/
def innerCoff (nh : UInt8) : ℕ :=
  if nh = ipprotoUdp then 6 else if nh = ipprotoTcp then 16 else 0

/-- `id6`: what the checksum of a quoted TCP or UDP header loses and gains. -/
def innerAddrDiff (k : Kernel) (c : Constants) (q : Quote) : UInt32 :=
  k.csumDiff ((prefixCopy q.in6.saddr).bytes ++ (prefixCopy q.in6.daddr).bytes)
    (le32Bytes (q.in4 k c).saddr ++ le32Bytes (q.in4 k c).daddr) 0

/-- The checksum of the quoted TCP or UDP header, when it is there: `C' = ~(~C + (P4 - P6))`. -/
def ingressInnerCsum (k : Kernel) (c : Constants) (q : Quote) (d : UInt32) : Clat UInt32 := do
  if innerCoff q.inNh ≠ 0 ∧ q.inFrag4 &&& ipOffset = 0 then
    match ← bpfSkbLoadBytes k (innerL4off + innerCoff q.inNh) 2 with
    | none => return d
    | some oc =>
      if load16 oc 0 ≠ 0 then
        let nc := innerNc (innerAddrDiff k c q) (load16 oc 0)
        orDrop (bpfSkbStoreBytes k (innerL4off + innerCoff q.inNh) (le16Bytes nc) storeFlags)
          .ingressDropHelper
        return word16Diff k (load16 oc 0) nc d
      else
        return d
  else
    return d

/-! ### The error as a whole -/

/-- ICMPv6 error: translate the header and the embedded packet. -/
def ingressError (k : Kernel) (c : Constants) (v : IngressVars) (hdr : List UInt8) :
    Clat Unit := do
  if ¬ (icmpMapOf hdr).1.ok then
    drop .ingressDropIcmpUnsupported
  else
    let q ← ingressQuote k c
    orDrop (bpfSkbAdjustRoom k (-(q.shrink : ℤ)) .net roomFlags) .ingressDropHelper
    orDrop (bpfSkbStoreBytes k ingressL4off (q.newBytes k c hdr) storeFlags) .ingressDropHelper
    -- the outer header was written for the unshrunk packet
    orDrop (bpfSkbStoreBytes k ethHlen (v.h4 k c (v.totLen - UInt16.ofNat q.shrink)).bytes
      storeFlags) .ingressDropHelper
    let d ← ingressInnerIcmp k q (errorDiff k c v q hdr)
    let d ← ingressInnerCsum k c q d
    orDrop (bpfL4CsumReplace k (ingressL4off + 2) 0 d pseudoHdr) .ingressDropHelper

/-- `case IPPROTO_ICMPV6`. -/
def ingressIcmp (k : Kernel) (c : Constants) (v : IngressVars) : Clat Unit := do
  match ← bpfSkbLoadBytes k ingressL4off 8 with
  | none => drop .ingressDropTruncated
  | some hdr =>
    if load8 hdr 0 = icmpv6EchoReply ∨ load8 hdr 0 = icmpv6EchoRequest then
      ingressEcho k v (load8 hdr 0) (load8 hdr 1)
    else
      ingressError k c v hdr

/-- `switch (nh)`. -/
def ingressL4 (k : Kernel) (c : Constants) (v : IngressVars) : Clat Unit :=
  if v.nh = ipprotoTcp then
    orDrop (bpfL4CsumReplace k (ingressL4off + 16) 0 (ingressDiff k c v) pseudoHdr)
      .ingressDropHelper
  else if v.nh = ipprotoUdp then
    ingressUdp k c v
  else if v.nh = ipprotoIcmpv6 then
    ingressIcmp k c v
  else
    return ()

/-! ## The program -/

/-- What follows the match: every exit below is a drop or a translation. -/
def ingressTranslate (k : Kernel) (c : Constants) (saddr6 daddr6 : In6Addr) (srcMapped : Bool) :
    Clat Unit := do
  let s ← get
  let v ← orDropWith (ingressHeader s.skb.data s.skb.headlen saddr6 daddr6 srcMapped)
  ingressReshape k c v
  if v.first then
    ingressL4 k c v

/-- The body of `clat_ingress`. -/
def clatIngressProg (k : Kernel) (c : Constants) : Clat TcAct := do
  let m ← ingressMatch k c
  ingressTranslate k c m.1 m.2.1 m.2.2
  count .ingressTranslated
  return .ok

/-- `clat_ingress`. -/
def clatIngress (k : Kernel) (c : Constants) (s : State) : TcAct × State :=
  runProg (clatIngressProg k c) s

end CiliumClat
