import CiliumClat.Library.OnesComplement

/-!
# Socket buffers and the kernel's helpers

The two BPF programs see a packet through `struct __sk_buff` and change it only by calling
kernel helpers.  The kernel is not part of the repository, so it is a *parameter*: a `Kernel`
is one function for each helper the programs call, and `Kernel.Lawful` says what the programs
rely on, helper by helper, as `bpf_helper_defs.h` documents it.

A helper may fail for reasons the program cannot see (no memory, a GSO packet, a length
limit).  Every helper therefore gets the number of calls made so far, so that two calls with
the same arguments may end differently, and answers `none` where the C function returns a
negative number.  `Lawful` only constrains the answers that are `some`; a kernel whose helpers
fail only when asked to reach outside the packet is `Reliable`.

## What an skb is here

* `data` is the frame, from the Ethernet header to its last byte, wherever the bytes live;
* `headlen` is `data_end - data`, the length of the linear part that direct packet access can
  see.  It never exceeds the packet, and the Ethernet header is always inside it: the tc hooks
  are entered with the MAC header pulled.
* `protocol` is `skb->protocol`, in network order like the source's `__be16` values;
* `ipSummed` and `csum` are the checksum state that `bpf_l4_csum_replace` and the stores keep
  up to date.
-/

namespace CiliumClat

open ByteList OnesComplement

/-! ## Byte order -/

/-- `bpf_htons` of the little-endian target. -/
abbrev bpfHtons : UInt16 → UInt16 := bswap16

/-- `bpf_ntohs` of the little-endian target. -/
abbrev bpfNtohs : UInt16 → UInt16 := bswap16

/-- `bpf_htonl` of the little-endian target. -/
abbrev bpfHtonl : UInt32 → UInt32 := bswap32

/-- `bpf_ntohl` of the little-endian target. -/
abbrev bpfNtohl : UInt32 → UInt32 := bswap32

/-- `ETH_HLEN`. -/
abbrev ethHlen : ℕ := 14

/-- `IP4_HLEN`, the size of `struct iphdr`. -/
abbrev ip4Hlen : ℕ := 20

/-- `IP6_HLEN`, the size of `struct ipv6hdr`. -/
abbrev ip6Hlen : ℕ := 40

/-- `ETH_P_IP`. -/
abbrev ethPIp : UInt16 := 0x0800

/-- `ETH_P_IPV6`. -/
abbrev ethPIpv6 : UInt16 := 0x86dd

/-! ## The buffer -/

/-- `skb->ip_summed`. -/
inductive IpSummed
  | checksumNone
  | checksumUnnecessary
  | checksumComplete
  | checksumPartial
  deriving DecidableEq, Repr

/-- A socket buffer as the tc hooks hand it to a program. -/
structure Skb where
  data : List UInt8
  headlen : ℕ
  protocol : UInt16
  ipSummed : IpSummed
  csum : UInt32
  headlen_le : headlen ≤ data.length
  mac_linear : min ethHlen data.length ≤ headlen

/-- The length of the fixed network header for `skb->protocol`, where `BPF_ADJ_ROOM_NET` adds
and removes room. -/
def Skb.netBaseLen (s : Skb) : Option ℕ :=
  if s.protocol = bpfHtons ethPIp then some ip4Hlen
  else if s.protocol = bpfHtons ethPIpv6 then some ip6Hlen
  else none

/-- The sum `skb->csum` stands for under `CHECKSUM_COMPLETE`: all bytes from the network header
to the end of the packet. -/
def Skb.netSum (s : Skb) : ℕ :=
  leSum (s.data.drop ethHlen)

/-- Two buffers that differ at most in how much of the packet is linear. -/
structure Skb.SamePacket (s s' : Skb) : Prop where
  data : s'.data = s.data
  protocol : s'.protocol = s.protocol
  ipSummed : s'.ipSummed = s.ipSummed
  csum : s'.csum = s.csum

/-! ## Flags -/

/-- Flags of `bpf_l4_csum_replace`. -/
structure CsumFlags where
  pseudoHdr : Bool
  markMangled0 : Bool
  markEnforce : Bool
  deriving DecidableEq, Repr

/-- Modes of `bpf_skb_adjust_room`. -/
inductive AdjRoomMode
  | net
  | mac
  deriving DecidableEq, Repr

/-- Flags of `bpf_skb_adjust_room`. -/
structure RoomFlags where
  fixedGso : Bool
  noCsumReset : Bool
  deriving DecidableEq, Repr

/-- `csum_replace_by_diff`: the end-around-carry update of a checksum field, and, under
`CHECKSUM_PARTIAL`, of the pseudo-header sum kept in its place. -/
def protoCsumReplaceByDiff (st : IpSummed) (pseudoHdr : Bool) (old : UInt16) (diff : UInt32) :
    UInt16 :=
  if st ≠ .checksumPartial then ~~~fold16 (csumAdd diff (~~~old.toUInt32))
  else if pseudoHdr then fold16 (csumAdd diff old.toUInt32)
  else old

/-- With `BPF_F_MARK_MANGLED_0` an update that results in a null checksum is stored as
`CSUM_MANGLED_0`. -/
def csumMangled0 (flags : CsumFlags) (new : UInt16) : UInt16 :=
  if flags.markMangled0 ∧ new = 0 then 0xffff else new

/-- `bpf_l4_csum_replace` with the difference form of its arguments, on the checksum field.
With `BPF_F_MARK_MANGLED_0` a null checksum is left untouched, unless `BPF_F_MARK_ENFORCE` is
given too. -/
def l4CsumField (st : IpSummed) (flags : CsumFlags) (old : UInt16) (diff : UInt32) : UInt16 :=
  if flags.markMangled0 ∧ ¬ flags.markEnforce ∧ old = 0 then old
  else csumMangled0 flags (protoCsumReplaceByDiff st flags.pseudoHdr old diff)

/-! ## The helpers -/

/-- The kernel helpers the programs call.  The first argument of each is the number of helper
calls made before; `none` is a negative return value. -/
structure Kernel where
  /-- `bpf_skb_pull_data(skb, len)`. -/
  skbPullData : ℕ → Skb → ℕ → Option Skb
  /-- `bpf_skb_load_bytes(skb, offset, to, len)`, the bytes loaded. -/
  skbLoadBytes : ℕ → Skb → ℕ → ℕ → Option (List UInt8)
  /-- `bpf_skb_store_bytes(skb, offset, from, len, flags)`; the flag is
  `BPF_F_RECOMPUTE_CSUM`. -/
  skbStoreBytes : ℕ → Skb → ℕ → List UInt8 → Bool → Option Skb
  /-- `bpf_skb_change_proto(skb, proto, 0)`. -/
  skbChangeProto : ℕ → Skb → UInt16 → Option Skb
  /-- `bpf_skb_adjust_room(skb, len_diff, mode, flags)`. -/
  skbAdjustRoom : ℕ → Skb → ℤ → AdjRoomMode → RoomFlags → Option Skb
  /-- `bpf_l4_csum_replace(skb, offset, from, to, flags)`. -/
  l4CsumReplace : ℕ → Skb → ℕ → UInt32 → UInt32 → CsumFlags → Option Skb
  /-- `bpf_csum_diff(from, from_size, to, to_size, seed)`. -/
  csumDiff : List UInt8 → List UInt8 → UInt32 → UInt32

/-- What a store of `bs` at `off` does to the buffer. -/
structure StoreEffect (s : Skb) (off : ℕ) (bs : List UInt8) (recompute : Bool) (s' : Skb) :
    Prop where
  inBounds : off + bs.length ≤ s.data.length
  data : s'.data = splice s.data off bs
  protocol : s'.protocol = s.protocol
  ipSummed : s'.ipSummed = s.ipSummed
  csum : s.ipSummed = .checksumComplete → (s'.csum.toNat : ZMod 65535) = s.csum.toNat +
    if recompute then
      (256 : ZMod 65535) ^ (off % 2) *
        ((leSum bs : ZMod 65535) - leSum (slice s.data off bs.length))
    else 0

/-- What removing `n` bytes at the even position `off` does to the buffer. -/
structure RemoveEffect (s : Skb) (off n : ℕ) (s' : Skb) : Prop where
  inBounds : off + n ≤ s.data.length
  data : s'.data = cut s.data off n
  ipSummed : s'.ipSummed = s.ipSummed
  csum : s.ipSummed = .checksumComplete →
    (s'.csum.toNat : ZMod 65535) = s.csum.toNat - leSum (slice s.data off n)

/-- What making room for `n` bytes at `off` does to the buffer.  The program is expected to
fill the room, so nothing is said about what is in it. -/
structure InsertEffect (s : Skb) (off n : ℕ) (s' : Skb) : Prop where
  inBounds : off ≤ s.data.length
  data : ∃ gap : List UInt8, gap.length = n ∧ s'.data = widen s.data off gap
  ipSummed : s'.ipSummed = s.ipSummed

/-- What an update of the checksum field at `off` does to the buffer. -/
structure L4CsumEffect (s : Skb) (off : ℕ) (diff : UInt32) (flags : CsumFlags) (s' : Skb) :
    Prop where
  inBounds : off + 2 ≤ s.data.length
  data : s'.data =
    splice s.data off (le16Bytes (l4CsumField s.ipSummed flags (load16 s.data off) diff))
  protocol : s'.protocol = s.protocol
  ipSummed : s'.ipSummed = s.ipSummed
  csum : s.ipSummed = .checksumComplete → flags.pseudoHdr →
    ¬ (flags.markMangled0 ∧ ¬ flags.markEnforce ∧ load16 s.data off = 0) →
    (s'.csum.toNat : ZMod 65535) = s.csum.toNat - diff.toNat

/-- **What the programs rely on.**  Every clause is about a call that succeeded; nothing is
assumed about when a call succeeds. -/
structure Kernel.Lawful (k : Kernel) : Prop where
  pullData : ∀ {n s len s'}, k.skbPullData n s len = some s' → s.SamePacket s'
  loadBytes : ∀ {n s off len bs}, k.skbLoadBytes n s off len = some bs →
    off + len ≤ s.data.length ∧ bs = slice s.data off len
  storeBytes : ∀ {n s off bs recompute s'}, k.skbStoreBytes n s off bs recompute = some s' →
    StoreEffect s off bs recompute s'
  changeProto6 : ∀ {n s s'}, k.skbChangeProto n s (bpfHtons ethPIpv6) = some s' →
    s.protocol = bpfHtons ethPIp ∧ s'.protocol = bpfHtons ethPIpv6 ∧
      InsertEffect s ethHlen (ip6Hlen - ip4Hlen) s'
  changeProto4 : ∀ {n s s'}, k.skbChangeProto n s (bpfHtons ethPIp) = some s' →
    s.protocol = bpfHtons ethPIpv6 ∧ s'.protocol = bpfHtons ethPIp ∧
      RemoveEffect s ethHlen (ip6Hlen - ip4Hlen) s'
  shrinkRoom : ∀ {n s} {d : ℕ} {flags s'}, 0 < d → flags.noCsumReset →
    k.skbAdjustRoom n s (-(d : ℤ)) .net flags = some s' →
    s'.protocol = s.protocol ∧ ∃ base, s.netBaseLen = some base ∧
      RemoveEffect s (ethHlen + base) d s'
  growRoom : ∀ {n s} {d : ℕ} {flags s'}, 0 < d → flags.noCsumReset →
    k.skbAdjustRoom n s (d : ℤ) .net flags = some s' →
    s'.protocol = s.protocol ∧ ∃ base, s.netBaseLen = some base ∧
      InsertEffect s (ethHlen + base) d s'
  l4CsumReplace : ∀ {n s off diff flags s'},
    k.l4CsumReplace n s off 0 diff flags = some s' → L4CsumEffect s off diff flags s'
  csumDiff : ∀ (old new : List UInt8) (seed : UInt32), old.length % 4 = 0 →
    new.length % 4 = 0 →
    ((k.csumDiff old new seed).toNat : ZMod 65535) = seed.toNat + leSum new - leSum old

/-- A kernel whose helpers fail only when asked to reach outside the packet, to change a
protocol that is not there, or to work on a protocol without a network header. -/
structure Kernel.Reliable (k : Kernel) : Prop where
  pullData : ∀ {n s len}, len ≤ s.data.length →
    ∃ s', k.skbPullData n s len = some s' ∧ len ≤ s'.headlen
  loadBytes : ∀ {n s off len}, off + len ≤ s.data.length → (k.skbLoadBytes n s off len).isSome
  storeBytes : ∀ {n s off bs recompute}, off + bs.length ≤ s.data.length →
    (k.skbStoreBytes n s off bs recompute).isSome
  changeProto6 : ∀ {n s}, s.protocol = bpfHtons ethPIp → ethHlen + ip4Hlen ≤ s.data.length →
    (k.skbChangeProto n s (bpfHtons ethPIpv6)).isSome
  changeProto4 : ∀ {n s}, s.protocol = bpfHtons ethPIpv6 → ethHlen + ip6Hlen ≤ s.data.length →
    (k.skbChangeProto n s (bpfHtons ethPIp)).isSome
  shrinkRoom : ∀ {n s} {d : ℕ} {flags base}, s.netBaseLen = some base →
    ethHlen + base + d ≤ s.data.length → (k.skbAdjustRoom n s (-(d : ℤ)) .net flags).isSome
  growRoom : ∀ {n s} {d : ℕ} {flags base}, s.netBaseLen = some base →
    ethHlen + base ≤ s.data.length → (k.skbAdjustRoom n s (d : ℤ) .net flags).isSome
  l4CsumReplace : ∀ {n s off diff flags}, off + 2 ≤ s.data.length → off % 2 = 0 →
    off ≤ 0xffff → (k.l4CsumReplace n s off 0 diff flags).isSome

/-! ## Values of the update -/

theorem toNat_toUInt32 (w : UInt16) : w.toUInt32.toNat = w.toNat :=
  UInt16.toNat_toUInt32 w

/-- The sign with which a difference enters the checksum field: a checksum is complemented, a
pseudo-header sum is not. -/
def IpSummed.sign : IpSummed → ZMod 65535
  | .checksumPartial => 1
  | _ => -1

theorem cast_protoCsumReplaceByDiff (st : IpSummed) (old : UInt16) (diff : UInt32) :
    ((protoCsumReplaceByDiff st true old diff).toNat : ZMod 65535)
      = old.toNat + st.sign * diff.toNat := by
  unfold protoCsumReplaceByDiff
  by_cases h : st = .checksumPartial
  · rw [if_neg (not_not.mpr h), if_pos rfl, cast_fold16, cast_csumAdd, toNat_toUInt32, h,
      IpSummed.sign]
    ring
  · have hs : st.sign = -1 := by
      cases st with
      | checksumPartial => exact absurd rfl h
      | _ => rfl
    rw [if_pos h, cast_not16, cast_fold16, cast_csumAdd, cast_not32, toNat_toUInt32, hs]
    ring

/-- **The update of a checksum field is an addition in `ZMod 65535`**, whatever the flags, as
long as the field is not a null checksum that the flags protect. -/
theorem cast_l4CsumField {st : IpSummed} {flags : CsumFlags} (hp : flags.pseudoHdr = true)
    {old : UInt16} {diff : UInt32}
    (h : ¬ (flags.markMangled0 ∧ ¬ flags.markEnforce ∧ old = 0)) :
    ((l4CsumField st flags old diff).toNat : ZMod 65535)
      = old.toNat + st.sign * diff.toNat := by
  rw [← cast_protoCsumReplaceByDiff st old diff, l4CsumField, if_neg h, hp, csumMangled0]
  split
  · next hz =>
    rw [hz.2]
    decide
  · rfl

/-- With `BPF_F_MARK_MANGLED_0` a field that is not null stays so, and with `BPF_F_MARK_ENFORCE` as
well one that is null does not. -/
theorem l4CsumField_ne_zero {st : IpSummed} {flags : CsumFlags} (hm : flags.markMangled0 = true)
    {old : UInt16} (hold : flags.markEnforce = true ∨ old ≠ 0) (diff : UInt32) :
    l4CsumField st flags old diff ≠ 0 := by
  rw [l4CsumField, if_neg (fun h => hold.elim h.2.1 fun hne => hne h.2.2), csumMangled0]
  split
  · decide
  · next hz => exact fun h => hz ⟨hm, h⟩

end CiliumClat
