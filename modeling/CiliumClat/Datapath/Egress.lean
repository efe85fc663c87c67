import CiliumClat.Datapath.Common

/-!
# `clat_egress`: IPv4 to IPv6

The egress half of `bpf/clat.c`, in the order of the source.  The body of `clat_egress` is cut
where the source has its paragraphs:

* `egressMatch`: the EtherType test;
* `egressLinear` and `egressHeader`: the IPv4 header is made linear, read and checked;
* `egressReshape`: options out, IPv6 header and Fragment header in, EtherType rewritten;
* `egressL4`: the transport checksum of an unfragmented packet or a first fragment.

`EgressVars` carries the local variables of the C function from one paragraph to the next.
-/

namespace CiliumClat

open ByteList OnesComplement EarlyExit

/-! ## The option scanner -/

/-- The loop of `ip4_has_source_route` with `fuel` of its forty rounds left, at option byte
`i`. -/
def ip4HasSourceRouteLoop (k : Kernel) (optoff optlen : ℕ) : ℕ → ℕ → Clat Bool
  | 0, _ => return false
  | fuel + 1, i => do
    if i ≥ optlen then
      return false
    match ← bpfSkbLoadBytes k (optoff + i) 1 with
    | none => return true
    | some t =>
      let t := load8 t 0
      -- end of option list
      if t = 0 then
        return false
      -- no-op
      if t = 1 then
        ip4HasSourceRouteLoop k optoff optlen fuel (i + 1)
      else if t = 131 ∨ t = 137 then
        return true
      -- malformed: type without length
      else if i + 1 ≥ optlen then
        return true
      else
        match ← bpfSkbLoadBytes k (optoff + i + 1) 1 with
        | none => return true
        | some l =>
          let l := load8 l 0
          if l < 2 then
            return true
          else
            ip4HasSourceRouteLoop k optoff optlen fuel (i + l.toNat)

/-- `ip4_has_source_route`: true when a source route option is present or the option list is
malformed. -/
def ip4HasSourceRoute (k : Kernel) (optoff optlen : ℕ) : Clat Bool :=
  if optlen < 4 ∨ optlen > 40 ∨ optlen &&& 3 ≠ 0 then
    return true
  else
    ip4HasSourceRouteLoop k optoff optlen 40 0

/-! ## The full UDP checksum -/

/-- `CSUM_CHUNK`. -/
abbrev csumChunk : ℕ := 256

/-- `CSUM_MAX_CHUNKS`. -/
abbrev csumMaxChunks : ℕ := 40

/-- The whole chunks of `udp_full_csum`, with `rounds` of the loop left: the offset and the sum
it ends with, or `none` when a load fails. -/
def udpFullCsumChunks (k : Kernel) (l4off ulen : ℕ) :
    ℕ → ℕ → UInt32 → Clat (Option (ℕ × UInt32))
  | 0, off, sum => return some (off, sum)
  | rounds + 1, off, sum => do
    if off + csumChunk > ulen then
      return some (off, sum)
    match ← bpfSkbLoadBytes k (l4off + off) csumChunk with
    | none => return none
    | some buf => udpFullCsumChunks k l4off ulen rounds (off + csumChunk) (k.csumDiff [] buf sum)

/-- The end of `udp_full_csum`: fold, and never answer zero. -/
def udpFullCsumFold (sum : UInt32) : UInt16 :=
  if csumFold sum = 0 then 0xffff else csumFold sum

/-- The bytes `udp_full_csum` has left after the whole chunks. -/
def csumTail (ulen off : ℕ) : ℕ :=
  (ulen - off) &&& (csumChunk - 1)

/-- The last, partial chunk of `udp_full_csum`. -/
def udpFullCsumTail (k : Kernel) (l4off ulen off : ℕ) (sum : UInt32) : Clat (Option UInt16) := do
  if csumTail ulen off ≠ 0 then
    match ← bpfSkbLoadBytes k (l4off + off) (csumTail ulen off) with
    | none => return none
    | some buf =>
      -- the buffer is cleared first, so the tail is zero-padded to a whole chunk
      return some (udpFullCsumFold
        (k.csumDiff [] (buf ++ List.replicate (csumChunk - csumTail ulen off) 0) sum))
  else
    return some (udpFullCsumFold sum)

/-- `udp_full_csum`: the checksum of the `ulen` bytes at `l4off` with the pseudo-header sum in
`seed`; `none` is the return value `-1`. -/
def udpFullCsum (k : Kernel) (l4off ulen : ℕ) (seed : UInt32) : Clat (Option UInt16) := do
  if ulen > csumChunk * csumMaxChunks then
    return none
  match ← udpFullCsumChunks k l4off ulen csumMaxChunks 0 seed with
  | none => return none
  | some (off, sum) => udpFullCsumTail k l4off ulen off sum

/-! ## The paragraphs of the program -/

/-- The local variables of `clat_egress` once the IPv4 header has been read: `id` as it stands
in the header, `fragOff` in host order. -/
structure EgressVars where
  tos : UInt8
  ttl : UInt8
  proto : UInt8
  saddr : UInt32
  daddr : UInt32
  id : UInt16
  fragOff : UInt16
  ihl : ℕ
  l4len : ℕ
  isFrag : Bool
  mf : Bool
  first : Bool
  deriving DecidableEq, Repr

/-- The EtherType test: anything but IPv4 passes. -/
def egressMatch : Clat Unit := do
  let s ← get
  if ethHlen > s.skb.headlen then
    throw .ok
  else if load16 s.skb.data 12 ≠ bpfHtons ethPIp then
    throw .ok
  else
    return ()

/-- Multicast and limited broadcast have no IPv6 mapping. -/
def isMcast (daddr : UInt32) : Bool :=
  daddr &&& bpfHtonl 0xf0000000 == bpfHtonl 0xe0000000 || daddr == bpfHtonl 0xffffffff

/-- Make the fixed header linear and read it. -/
def egressLinear (k : Kernel) : Clat Iphdr := do
  if ← ensureLinear k (ethHlen + ip4Hlen) then
    let s ← get
    if ethHlen + ip4Hlen > s.skb.headlen then
      drop .egressDropTruncated
    else
      return Iphdr.load s.skb.data ethHlen
  else
    drop .egressDropTruncated

/-- The local variables, as read from the header. -/
def egressVars (ip4 : Iphdr) : EgressVars where
  tos := ip4.tos
  ttl := ip4.ttl
  proto := ip4.protocol
  saddr := ip4.saddr
  daddr := ip4.daddr
  id := ip4.id
  fragOff := bpfNtohs ip4.fragOff
  ihl := ip4.ihl.toNat * 4
  l4len := (bpfNtohs ip4.totLen).toNat - ip4.ihl.toNat * 4
  isFrag := bpfNtohs ip4.fragOff &&& (ipMf ||| ipOffset) != 0
  mf := bpfNtohs ip4.fragOff &&& ipMf != 0
  first := bpfNtohs ip4.fragOff &&& ipOffset == 0

/-- The checks on the IPv4 header. -/
def egressHeader (c : Constants) (ip4 : Iphdr) : Except Counter EgressVars :=
  if ip4.version ≠ 4 then .error .egressDropTruncated
  else if ip4.ihl.toNat * 4 < ip4Hlen then .error .egressDropTruncated
  else if ip4.saddr ≠ c.podIp4 then .error .egressDropBadSrc
  else if isMcast ip4.daddr then .error .egressDropMcast
  else if (bpfNtohs ip4.totLen).toNat < ip4.ihl.toNat * 4 then .error .egressDropTruncated
  -- the ICMPv6 checksum needs the length of the whole datagram
  else if (egressVars ip4).isFrag ∧ ip4.protocol = ipprotoIcmp then .error .egressDropFragNoCsum
  else .ok (egressVars ip4)

/-- `nh6`. -/
def EgressVars.nh6 (v : EgressVars) : UInt8 :=
  if v.proto = ipprotoIcmp then ipprotoIcmpv6 else v.proto

/-- The IPv6 header `h6`. -/
def EgressVars.h6 (c : Constants) (v : EgressVars) : Ipv6hdr where
  vtcFlow := bpfHtonl (0x60000000 ||| v.tos.toUInt32 <<< (20 : UInt32))
  payloadLen := bpfHtons (UInt16.ofNat (v.l4len + if v.isFrag then fragHlen else 0))
  nexthdr := if v.isFrag then ipprotoFragment else v.nh6
  hopLimit := v.ttl
  saddr := prefixCopy c.podIp6
  daddr := { prefixCopy c.clatPrefix with w3 := v.daddr }

/-- The Fragment header `fh`. -/
def EgressVars.fh (v : EgressVars) : FragHdr where
  nexthdr := v.nh6
  reserved := 0
  fragOff := bpfHtons ((v.fragOff &&& ipOffset) <<< (3 : UInt16) ||| if v.mf then 1 else 0)
  identification := bpfHtonl (bpfNtohs v.id).toUInt32

/-- `l4off`, counting the Fragment header. -/
def EgressVars.l4off (v : EgressVars) : ℕ :=
  ethHlen + ip6Hlen + if v.isFrag then fragHlen else 0

/-- Drop source routes, strip the other options. -/
def egressOptions (k : Kernel) (v : EgressVars) : Clat Unit := do
  let optlen := v.ihl - ip4Hlen
  if optlen ≠ 0 then
    if ← ip4HasSourceRoute k (ethHlen + ip4Hlen) optlen then
      drop .egressDropSrcroute
    else
      orDrop (bpfSkbAdjustRoom k (-(optlen : ℤ)) .net roomFlags) .egressDropHelper

/-- Reshape the packet and write the new headers. -/
def egressReshape (k : Kernel) (c : Constants) (v : EgressVars) : Clat Unit := do
  orDrop (bpfSkbChangeProto k (bpfHtons ethPIpv6)) .egressDropHelper
  if v.isFrag then
    orDrop (bpfSkbAdjustRoom k (fragHlen : ℤ) .net roomFlags) .egressDropHelper
  orDrop (bpfSkbStoreBytes k ethHlen (v.h6 c).bytes storeFlags) .egressDropHelper
  if v.isFrag then
    orDrop (bpfSkbStoreBytes k (ethHlen + ip6Hlen) v.fh.bytes storeFlags) .egressDropHelper
  -- the MAC header is outside `skb->csum` coverage: no recompute
  orDrop (bpfSkbStoreBytes k 12 (le16Bytes (bpfHtons ethPIpv6)) false) .egressDropHelper

/-! ## The transport checksum -/

/-- Pseudo-header delta: the addresses are the only fields that change between the IPv4 and
the IPv6 pseudo-header for TCP and UDP. -/
def egressDiff (k : Kernel) (c : Constants) (v : EgressVars) : UInt32 :=
  k.csumDiff (le32Bytes v.saddr ++ le32Bytes v.daddr)
    ((v.h6 c).saddr.bytes ++ (v.h6 c).daddr.bytes) 0

/-- The IPv6 pseudo-header of the translated packet. -/
def egressPseudo6 (c : Constants) (v : EgressVars) (nexthdr : UInt8) : Pseudo6 where
  saddr := prefixCopy (v.h6 c).saddr
  daddr := prefixCopy (v.h6 c).daddr
  len := bpfHtonl (UInt32.ofNat v.l4len)
  nexthdr := bpfHtonl nexthdr.toUInt32

/-- The IPv4 pseudo-header sum by which a zero UDP checksum field is judged. -/
def egressPseudo4 (v : EgressVars) : List UInt8 :=
  le32Bytes v.saddr ++ (le32Bytes v.daddr ++
    (le32Bytes (bpfHtonl ipprotoUdp.toUInt32) ++ le32Bytes (bpfHtonl (UInt32.ofNat v.l4len))))

/-- `case IPPROTO_UDP`. -/
def egressUdp (k : Kernel) (c : Constants) (v : EgressVars) : Clat Unit := do
  match ← bpfSkbLoadBytes k (v.l4off + 6) 2 with
  | none => drop .egressDropTruncated
  | some check =>
    if load16 check 0 ≠ 0 then
      orDrop (bpfL4CsumReplace k (v.l4off + 6) 0 (egressDiff k c v) pseudoHdrMangled0)
        .egressDropHelper
    -- a partial checksum whose pseudo-header sum folds to zero
    else if csumFold (k.csumDiff [] (egressPseudo4 v) 0) = 0 then
      orDrop (bpfL4CsumReplace k (v.l4off + 6) 0 (egressDiff k c v) pseudoHdrEnforce)
        .egressDropHelper
    else if v.isFrag then
      drop .egressDropFragNoCsum
    else
      let seed := k.csumDiff [] (egressPseudo6 c v ipprotoUdp).bytes 0
      match ← udpFullCsum k v.l4off v.l4len seed with
      | none => drop .egressDropTooBig
      | some full =>
        orDrop (bpfSkbStoreBytes k (v.l4off + 6) (le16Bytes full) storeFlags) .egressDropHelper

/-- The ICMPv6 type of an ICMPv4 echo; no ICMPv4 error is translated on egress. -/
def egressIcmpType (t4 : UInt8) : Except Counter UInt8 :=
  if t4 = icmpEcho then .ok icmpv6EchoRequest
  else if t4 = icmpEchoreply then .ok icmpv6EchoReply
  else .error .egressDropIcmpUnsupported

/-- A type byte and a code as a 32-bit word in packet byte order. -/
def typeWord (type code : UInt8) : UInt32 :=
  bpfHtonl (type.toUInt32 <<< (24 : UInt32) ||| code.toUInt32 <<< (16 : UInt32))

/-- The checksum difference of an ICMP echo: ICMPv6 adds a pseudo-header that ICMPv4 does not
have, and the type changes. -/
def egressIcmpDiff (k : Kernel) (c : Constants) (v : EgressVars) (t4 t6 code : UInt8) : UInt32 :=
  k.csumDiff (le32Bytes (typeWord t4 code)) (le32Bytes (typeWord t6 code))
    (k.csumDiff [] (egressPseudo6 c v ipprotoIcmpv6).bytes 0)

/-- `case IPPROTO_ICMP`. -/
def egressIcmp (k : Kernel) (c : Constants) (v : EgressVars) : Clat Unit := do
  match ← bpfSkbLoadBytes k v.l4off 2 with
  | none => drop .egressDropTruncated
  | some tc =>
    let t6 ← orDropWith (egressIcmpType (load8 tc 0))
    orDrop (bpfSkbStoreBytes k v.l4off [t6] storeFlags) .egressDropHelper
    orDrop (bpfL4CsumReplace k (v.l4off + 2) 0
      (egressIcmpDiff k c v (load8 tc 0) t6 (load8 tc 1)) pseudoHdr) .egressDropHelper

/-- `switch (proto)`. -/
def egressL4 (k : Kernel) (c : Constants) (v : EgressVars) : Clat Unit :=
  if v.proto = ipprotoTcp then
    orDrop (bpfL4CsumReplace k (v.l4off + 16) 0 (egressDiff k c v) pseudoHdr) .egressDropHelper
  else if v.proto = ipprotoUdp then
    egressUdp k c v
  else if v.proto = ipprotoIcmp then
    egressIcmp k c v
  else
    return ()

/-- What follows the EtherType test: every exit below is a drop or a translation. -/
def egressTranslate (k : Kernel) (c : Constants) : Clat Unit := do
  let ip4 ← egressLinear k
  let v ← orDropWith (egressHeader c ip4)
  egressOptions k v
  egressReshape k c v
  if v.first then
    egressL4 k c v

/-- The body of `clat_egress`. -/
def clatEgressProg (k : Kernel) (c : Constants) : Clat TcAct := do
  egressMatch
  egressTranslate k c
  count .egressTranslated
  return .ok

/-- A program run: the verdict, and the state it leaves. -/
def runProg (p : Clat TcAct) (s : State) : TcAct × State :=
  match exec p s with
  | (.ok v, s') => (v, s')
  | (.error v, s') => (v, s')

/-- `clat_egress`. -/
def clatEgress (k : Kernel) (c : Constants) (s : State) : TcAct × State :=
  runProg (clatEgressProg k c) s

end CiliumClat
