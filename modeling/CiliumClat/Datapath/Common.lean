import CiliumClat.Datapath.Headers
import CiliumClat.Library.EarlyExit
import Mathlib.Logic.Function.Basic

/-!
# What both programs share

The first half of `bpf/clat.c`: the per-pod constants, the counters, the checksum arithmetic
and the predicates on addresses and next headers, and the calling convention of the helpers.

A program is a `Clat α`: it runs over a `State` (the socket buffer, this CPU's counters and the
number of helper calls made) and may stop early with a verdict.  `DROP(key)` is `drop key`, and
the idiom `if (helper(...) < 0) return DROP(key)` is `orDrop (helper ..) key`.  A stretch of
the source without helper calls is a plain function into `Except Counter`, whose error is the
counter to drop with, and enters a program through `orDropWith`.
-/

namespace CiliumClat

open ByteList OnesComplement EarlyExit

/-! ## Constants, counters, verdicts -/

/-- The verdicts of a tc program. -/
inductive TcAct
  | ok
  | shot
  deriving DecidableEq, Repr

/-- The two hooks of a clsact qdisc. -/
inductive Hook
  | egress
  | ingress
  deriving DecidableEq, Repr

/-- The per-pod constants, set by the plugin before load. -/
structure Constants where
  clatPrefix : In6Addr
  podIp6 : In6Addr
  podIp4 : UInt32
  errIp4 : UInt32
  deriving DecidableEq, Repr

/-- `enum clat_counter`. -/
inductive Counter
  | egressTranslated
  | ingressTranslated
  | egressDropTruncated
  | egressDropBadSrc
  | egressDropMcast
  | egressDropSrcroute
  | egressDropFragNoCsum
  | egressDropIcmpUnsupported
  | egressDropTooBig
  | egressDropHelper
  | ingressDropTruncated
  | ingressDropExthdr
  | ingressDropUdpZeroCsum
  | ingressDropFragIcmp
  | ingressDropIcmpUnsupported
  | ingressDropIcmpInner
  | ingressDropHelper
  deriving DecidableEq, Repr

/-- The counters `clat_egress` drops with. -/
def Counter.isEgressDrop : Counter → Bool
  | .egressDropTruncated | .egressDropBadSrc | .egressDropMcast | .egressDropSrcroute
  | .egressDropFragNoCsum | .egressDropIcmpUnsupported | .egressDropTooBig
  | .egressDropHelper => true
  | _ => false

/-- The counters `clat_ingress` drops with. -/
def Counter.isIngressDrop : Counter → Bool
  | .ingressDropTruncated | .ingressDropExthdr | .ingressDropUdpZeroCsum | .ingressDropFragIcmp
  | .ingressDropIcmpUnsupported | .ingressDropIcmpInner | .ingressDropHelper => true
  | _ => false

/-- What a program runs over. -/
structure State where
  skb : Skb
  counters : Counter → ℕ
  calls : ℕ

/-- One more in a counter. -/
def bump (counters : Counter → ℕ) (key : Counter) : Counter → ℕ :=
  Function.update counters key (counters key + 1)

/-- A program of `bpf/clat.c`. -/
abbrev Clat (α : Type) : Type := Prog State TcAct α

/-- `count`. -/
def count (key : Counter) : Clat Unit :=
  modify fun s => { s with counters := bump s.counters key }

/-- `DROP`. -/
def drop {α : Type} (key : Counter) : Clat α := do
  count key
  throw .shot

/-! ## Calling the helpers -/

/-- Call a helper that may change the buffer; `false` is a negative return value. -/
def callHelper (f : ℕ → Skb → Option Skb) : Clat Bool := do
  let s ← get
  match f s.calls s.skb with
  | some skb => do
    set { s with skb := skb, calls := s.calls + 1 }
    return true
  | none => do
    set { s with calls := s.calls + 1 }
    return false

/-- `bpf_skb_pull_data`. -/
def bpfSkbPullData (k : Kernel) (len : ℕ) : Clat Bool :=
  callHelper fun n s => k.skbPullData n s len

/-- `bpf_skb_load_bytes`. -/
def bpfSkbLoadBytes (k : Kernel) (off len : ℕ) : Clat (Option (List UInt8)) := do
  let s ← get
  set { s with calls := s.calls + 1 }
  return k.skbLoadBytes s.calls s.skb off len

/-- `bpf_skb_store_bytes`. -/
def bpfSkbStoreBytes (k : Kernel) (off : ℕ) (bs : List UInt8) (recompute : Bool) : Clat Bool :=
  callHelper fun n s => k.skbStoreBytes n s off bs recompute

/-- `bpf_skb_change_proto`. -/
def bpfSkbChangeProto (k : Kernel) (proto : UInt16) : Clat Bool :=
  callHelper fun n s => k.skbChangeProto n s proto

/-- `bpf_skb_adjust_room`. -/
def bpfSkbAdjustRoom (k : Kernel) (lenDiff : ℤ) (mode : AdjRoomMode) (flags : RoomFlags) :
    Clat Bool :=
  callHelper fun n s => k.skbAdjustRoom n s lenDiff mode flags

/-- `bpf_l4_csum_replace`. -/
def bpfL4CsumReplace (k : Kernel) (off : ℕ) (old new : UInt32) (flags : CsumFlags) :
    Clat Bool :=
  callHelper fun n s => k.l4CsumReplace n s off old new flags

/-- `if (helper(...) < 0) return DROP(key)`. -/
def orDrop (call : Clat Bool) (key : Counter) : Clat Unit := do
  if ← call then return ()
  else drop key

/-- A stretch of code without helper calls that may `return DROP(key)`. -/
def orDropWith {α : Type} : Except Counter α → Clat α
  | .ok a => pure a
  | .error key => drop key

/-- `STORE_FLAGS`: recompute the checksum. -/
abbrev storeFlags : Bool := true

/-- `ROOM_FLAGS`. -/
abbrev roomFlags : RoomFlags where
  fixedGso := true
  noCsumReset := true

/-- `BPF_F_PSEUDO_HDR`. -/
abbrev pseudoHdr : CsumFlags where
  pseudoHdr := true
  markMangled0 := false
  markEnforce := false

/-- `BPF_F_PSEUDO_HDR | BPF_F_MARK_MANGLED_0`. -/
abbrev pseudoHdrMangled0 : CsumFlags where
  pseudoHdr := true
  markMangled0 := true
  markEnforce := false

/-- `BPF_F_PSEUDO_HDR | BPF_F_MARK_MANGLED_0 | BPF_F_MARK_ENFORCE`. -/
abbrev pseudoHdrEnforce : CsumFlags where
  pseudoHdr := true
  markMangled0 := true
  markEnforce := true

/-! ## Numbers of the protocols -/

/-- `FRAG_HLEN`, the size of `struct frag_hdr`. -/
abbrev fragHlen : ℕ := 8

/-- `IP_DF`. -/
abbrev ipDf : UInt16 := 0x4000

/-- `IP_MF`. -/
abbrev ipMf : UInt16 := 0x2000

/-- `IP_OFFSET`. -/
abbrev ipOffset : UInt16 := 0x1fff

/-- `IPPROTO_ICMP`. -/
abbrev ipprotoIcmp : UInt8 := 1

/-- `IPPROTO_TCP`. -/
abbrev ipprotoTcp : UInt8 := 6

/-- `IPPROTO_UDP`. -/
abbrev ipprotoUdp : UInt8 := 17

/-- `IPPROTO_FRAGMENT`. -/
abbrev ipprotoFragment : UInt8 := 44

/-- `IPPROTO_ICMPV6`. -/
abbrev ipprotoIcmpv6 : UInt8 := 58

/-- `ICMP_ECHOREPLY`. -/
abbrev icmpEchoreply : UInt8 := 0

/-- `ICMP_ECHO`. -/
abbrev icmpEcho : UInt8 := 8

/-- `ICMPV6_ECHO_REQUEST`. -/
abbrev icmpv6EchoRequest : UInt8 := 128

/-- `ICMPV6_ECHO_REPLY`. -/
abbrev icmpv6EchoReply : UInt8 := 129

/-! ## Frames -/

/-- An Ethernet frame with EtherType `et`. -/
def HasEtherType (data : List UInt8) (et : UInt16) : Prop :=
  ethHlen ≤ data.length ∧ load16 data 12 = bpfHtons et

instance (data : List UInt8) (et : UInt16) : Decidable (HasEtherType data et) :=
  inferInstanceAs (Decidable (_ ∧ _))

/-! ## The small functions -/

/-- `csum_fold`. -/
def csumFold (csum : UInt32) : UInt16 :=
  let s : UInt32 := csum
  let s : UInt32 := (s &&& (0xffff : UInt32)) + (s >>> (16 : UInt32))
  let s : UInt32 := (s &&& (0xffff : UInt32)) + (s >>> (16 : UInt32))
  ~~~s.toUInt16

/-- `word16`: a 32-bit word whose first two bytes are `v` and last two are zero, in packet
byte order. -/
def word16 (v : UInt16) : UInt32 :=
  load32 (le16Bytes v ++ [0, 0]) 0

/-- `prefix_copy`. -/
def prefixCopy (src : In6Addr) : In6Addr where
  w0 := src.w0
  w1 := src.w1
  w2 := src.w2
  w3 := src.w3

/-- `addr6_eq`. -/
def addr6Eq (a b : In6Addr) : Bool :=
  a.w0 == b.w0 && a.w1 == b.w1 && a.w2 == b.w2 && a.w3 == b.w3

/-- `in_prefix`. -/
def inPrefix (c : Constants) (a : In6Addr) : Bool :=
  a.w0 == c.clatPrefix.w0 && a.w1 == c.clatPrefix.w1 && a.w2 == c.clatPrefix.w2

/-- `ensure_linear`: make sure the first `len` bytes are in the linear area. -/
def ensureLinear (k : Kernel) (len : ℕ) : Clat Bool := do
  let s ← get
  if s.skb.headlen ≥ len then
    return true
  if ← bpfSkbPullData k len then
    let s ← get
    return decide (s.skb.headlen ≥ len)
  else
    return false

/-- `is_ext_hdr`: Hop-by-Hop, Routing, Fragment, Destination Options, AH, No Next Header,
Mobility, HIP and Shim6. -/
def isExtHdr (nh : UInt8) : Bool :=
  nh == 0 || nh == 43 || nh == 44 || nh == 60 || nh == 51 || nh == 59 || nh == 135 ||
    nh == 139 || nh == 140

/-! ## Their values -/

theorem csumFold_eq (csum : UInt32) : csumFold csum = ~~~fold16 csum := rfl

theorem cast_csumFold (csum : UInt32) :
    ((csumFold csum).toNat : ZMod 65535) = -csum.toNat := by
  rw [csumFold_eq, cast_not16, cast_fold16]

theorem csumFold_eq_zero_iff (csum : UInt32) :
    csumFold csum = 0 ↔ 0 < csum.toNat ∧ csum.toNat % 65535 = 0 := by
  rw [csumFold_eq, ← fold16_eq_ones_iff]
  generalize fold16 csum = w
  constructor
  · intro h
    rw [← UInt16.not_not (a := w), h]
    rfl
  · rintro rfl
    rfl

theorem le32Bytes_word16 (v : UInt16) : le32Bytes (word16 v) = le16Bytes v ++ [0, 0] :=
  le32Bytes_le32 _ _ 0 0

@[simp] theorem prefixCopy_eq (src : In6Addr) : prefixCopy src = src := rfl

theorem addr6Eq_iff {a b : In6Addr} : addr6Eq a b = true ↔ a = b := by
  rw [In6Addr.ext_iff]
  simp [addr6Eq, and_assoc]

/-- An address is in the prefix exactly when it is the prefix followed by its own last word. -/
theorem inPrefix_iff {c : Constants} {a : In6Addr} :
    inPrefix c a = true ↔ a = { c.clatPrefix with w3 := a.w3 } := by
  rw [In6Addr.ext_iff]
  simp [inPrefix, and_assoc]

end CiliumClat
