import CiliumClat.Kernel.Skb

/-!
# Packet headers

The C structures the programs read from and write to a packet, field by field, with the values
as the little-endian target holds them: a `__be16` field is the native value of its two bytes
and is turned into a number by `bpf_ntohs`.  A structure has `bytes`, its image in memory, and
`load l off`, the structure found at position `off` of a buffer, which is what a cast pointer
reads.

For every structure the two are inverse to each other:

* `load_bytes`: what was written is read back;
* `bytes_load`: what was read, written again, is the stretch it was read from.
-/

namespace CiliumClat

open ByteList OnesComplement

/-! ## IPv6 addresses -/

/-- `struct in6_addr`, by its 32-bit words `u6_addr32`. -/
@[ext] structure In6Addr where
  w0 : UInt32
  w1 : UInt32
  w2 : UInt32
  w3 : UInt32
  deriving DecidableEq, Repr

namespace In6Addr

/-- The sixteen bytes of an address. -/
def bytes (a : In6Addr) : List UInt8 :=
  le32Bytes a.w0 ++ (le32Bytes a.w1 ++ (le32Bytes a.w2 ++ le32Bytes a.w3))

/-- The address at position `off`. -/
def load (l : List UInt8) (off : ℕ) : In6Addr where
  w0 := load32 l off
  w1 := load32 l (off + 4)
  w2 := load32 l (off + 8)
  w3 := load32 l (off + 12)

@[simp] theorem length_bytes (a : In6Addr) : a.bytes.length = 16 := rfl

theorem load_bytes (a : In6Addr) (r : List UInt8) : load (a.bytes ++ r) 0 = a := by
  ext1
  · exact le32_bytes a.w0
  · exact le32_bytes a.w1
  · exact le32_bytes a.w2
  · exact le32_bytes a.w3

theorem bytes_load {l : List UInt8} {off : ℕ} (h : off + 16 ≤ l.length) :
    (load l off).bytes = slice l off 16 := by
  rw [slice_add l off 4 12, slice_add l (off + 4) 4 8, slice_add l (off + 4 + 4) 4 4,
    slice_four (by omega), slice_four (by omega), slice_four (by omega), slice_four (by omega)]
  rfl

theorem load_append_add {a : List UInt8} {off : ℕ} (ha : a.length = off) (l : List UInt8)
    (i : ℕ) : load (a ++ l) (off + i) = load l i := by
  simp only [load, Nat.add_assoc, load32_append_add ha]

theorem load_drop (l : List UInt8) (n i : ℕ) : load (l.drop n) i = load l (n + i) := by
  simp only [load, Nat.add_assoc, load32_drop]

theorem load_slice {l : List UInt8} {off n i : ℕ} (h : i + 16 ≤ n) :
    load (slice l off n) i = load l (off + i) := by
  rw [load, load32_slice (by omega), load32_slice (by omega), load32_slice (by omega),
    load32_slice (by omega), load]
  simp only [Nat.add_assoc]

end In6Addr

/-! ## IPv4 -/

/-- `struct iphdr`. -/
@[ext] structure Iphdr where
  version : BitVec 4
  ihl : BitVec 4
  tos : UInt8
  totLen : UInt16
  id : UInt16
  fragOff : UInt16
  ttl : UInt8
  protocol : UInt8
  check : UInt16
  saddr : UInt32
  daddr : UInt32
  deriving DecidableEq, Repr

namespace Iphdr

/-- The twenty bytes of the header. -/
def bytes (h : Iphdr) : List UInt8 :=
  [UInt8.ofNat (16 * h.version.toNat + h.ihl.toNat), h.tos] ++ (le16Bytes h.totLen ++
    (le16Bytes h.id ++ (le16Bytes h.fragOff ++ ([h.ttl, h.protocol] ++ (le16Bytes h.check ++
      (le32Bytes h.saddr ++ le32Bytes h.daddr))))))

/-- The header at position `off`. -/
def load (l : List UInt8) (off : ℕ) : Iphdr where
  version := BitVec.ofNat 4 ((load8 l off).toNat / 16)
  ihl := BitVec.ofNat 4 (load8 l off).toNat
  tos := load8 l (off + 1)
  totLen := load16 l (off + 2)
  id := load16 l (off + 4)
  fragOff := load16 l (off + 6)
  ttl := load8 l (off + 8)
  protocol := load8 l (off + 9)
  check := load16 l (off + 10)
  saddr := load32 l (off + 12)
  daddr := load32 l (off + 16)

@[simp] theorem length_bytes (h : Iphdr) : h.bytes.length = 20 := rfl

theorem load_bytes (h : Iphdr) (r : List UInt8) : load (h.bytes ++ r) 0 = h := by
  have hv := h.version.isLt
  have hi := h.ihl.isLt
  have hb : (load8 (h.bytes ++ r) 0).toNat = 16 * h.version.toNat + h.ihl.toNat := by
    show (UInt8.ofNat (16 * h.version.toNat + h.ihl.toNat)).toNat = _
    rw [UInt8.toNat_ofNat']
    omega
  ext1
  · show BitVec.ofNat 4 ((load8 (h.bytes ++ r) 0).toNat / 16) = h.version
    rw [hb, ← BitVec.toNat_inj, BitVec.toNat_ofNat]
    omega
  · show BitVec.ofNat 4 (load8 (h.bytes ++ r) 0).toNat = h.ihl
    rw [hb, ← BitVec.toNat_inj, BitVec.toNat_ofNat]
    omega
  · rfl
  · exact le16_bytes h.totLen
  · exact le16_bytes h.id
  · exact le16_bytes h.fragOff
  · rfl
  · rfl
  · exact le16_bytes h.check
  · exact le32_bytes h.saddr
  · exact le32_bytes h.daddr

/-- The first byte, taken apart and put together again. -/
theorem versionIhl_byte (b : UInt8) :
    UInt8.ofNat (16 * (BitVec.ofNat 4 (b.toNat / 16)).toNat + (BitVec.ofNat 4 b.toNat).toNat)
      = b := by
  have hb := b.toNat_lt
  rw [← UInt8.toNat_inj, UInt8.toNat_ofNat', BitVec.toNat_ofNat, BitVec.toNat_ofNat]
  omega

theorem bytes_load {l : List UInt8} {off : ℕ} (h : off + 20 ≤ l.length) :
    (load l off).bytes = slice l off 20 := by
  rw [slice_add l off 1 19, slice_add l (off + 1) 1 18, slice_add l (off + 1 + 1) 2 16,
    slice_add l (off + 1 + 1 + 2) 2 14, slice_add l (off + 1 + 1 + 2 + 2) 2 12,
    slice_add l (off + 1 + 1 + 2 + 2 + 2) 1 11, slice_add l (off + 1 + 1 + 2 + 2 + 2 + 1) 1 10,
    slice_add l (off + 1 + 1 + 2 + 2 + 2 + 1 + 1) 2 8,
    slice_add l (off + 1 + 1 + 2 + 2 + 2 + 1 + 1 + 2) 4 4,
    slice_one (by omega), slice_one (by omega), slice_two (by omega), slice_two (by omega),
    slice_two (by omega), slice_one (by omega), slice_one (by omega), slice_two (by omega),
    slice_four (by omega), slice_four (by omega), bytes]
  simp only [load, versionIhl_byte]
  rfl

theorem load_append_add {a : List UInt8} {off : ℕ} (ha : a.length = off) (l : List UInt8)
    (i : ℕ) : load (a ++ l) (off + i) = load l i := by
  simp only [load, Nat.add_assoc, load8_append_add ha, load16_append_add ha,
    load32_append_add ha]

/-- A header behind other bytes is read back. -/
theorem load_append_bytes {a : List UInt8} {off : ℕ} (ha : a.length = off) (h : Iphdr)
    (r : List UInt8) : load (a ++ (h.bytes ++ r)) off = h :=
  (load_append_add ha _ 0).trans (load_bytes h r)

/-- Filling in the checksum field adds it to the sum of the header. -/
theorem leSum_bytes_check (h : Iphdr) (w : UInt16) :
    leSum { h with check := w }.bytes = leSum { h with check := 0 }.bytes + w.toNat := by
  have hw := w.toNat_lt
  simp only [bytes, le16Bytes, le32Bytes, List.cons_append, List.nil_append, leSum,
    UInt8.toNat_ofNat', UInt16.toNat_zero]
  omega

end Iphdr

/-! ## IPv6 -/

/-- `struct ipv6hdr`.  The programs use the version, traffic class and flow label only through
the 32-bit word they share, so that word is the field. -/
@[ext] structure Ipv6hdr where
  vtcFlow : UInt32
  payloadLen : UInt16
  nexthdr : UInt8
  hopLimit : UInt8
  saddr : In6Addr
  daddr : In6Addr
  deriving DecidableEq, Repr

namespace Ipv6hdr

/-- `ip6->version`: the high four bits of the first byte. -/
def version (h : Ipv6hdr) : BitVec 4 :=
  BitVec.ofNat 4 (h.vtcFlow.toNat % 256 / 16)

/-- The forty bytes of the header. -/
def bytes (h : Ipv6hdr) : List UInt8 :=
  le32Bytes h.vtcFlow ++ (le16Bytes h.payloadLen ++ ([h.nexthdr, h.hopLimit] ++
    (h.saddr.bytes ++ h.daddr.bytes)))

/-- The header at position `off`. -/
def load (l : List UInt8) (off : ℕ) : Ipv6hdr where
  vtcFlow := load32 l off
  payloadLen := load16 l (off + 4)
  nexthdr := load8 l (off + 6)
  hopLimit := load8 l (off + 7)
  saddr := In6Addr.load l (off + 8)
  daddr := In6Addr.load l (off + 24)

@[simp] theorem length_bytes (h : Ipv6hdr) : h.bytes.length = 40 := rfl

theorem load_bytes (h : Ipv6hdr) (r : List UInt8) : load (h.bytes ++ r) 0 = h := by
  ext1
  · exact le32_bytes h.vtcFlow
  · exact le16_bytes h.payloadLen
  · rfl
  · rfl
  · exact In6Addr.load_bytes h.saddr (h.daddr.bytes ++ r)
  · exact In6Addr.load_bytes h.daddr r

theorem bytes_load {l : List UInt8} {off : ℕ} (h : off + 40 ≤ l.length) :
    (load l off).bytes = slice l off 40 := by
  rw [slice_add l off 4 36, slice_add l (off + 4) 2 34, slice_add l (off + 4 + 2) 1 33,
    slice_add l (off + 4 + 2 + 1) 1 32, slice_add l (off + 4 + 2 + 1 + 1) 16 16,
    slice_four (by omega), slice_two (by omega), slice_one (by omega), slice_one (by omega),
    ← In6Addr.bytes_load (by omega), ← In6Addr.bytes_load (by omega)]
  rfl

theorem load_append_add {a : List UInt8} {off : ℕ} (ha : a.length = off) (l : List UInt8)
    (i : ℕ) : load (a ++ l) (off + i) = load l i := by
  simp only [load, Nat.add_assoc, load8_append_add ha, load16_append_add ha,
    load32_append_add ha, In6Addr.load_append_add ha]

/-- A header behind other bytes is read back. -/
theorem load_append_bytes {a : List UInt8} {off : ℕ} (ha : a.length = off) (h : Ipv6hdr)
    (r : List UInt8) : load (a ++ (h.bytes ++ r)) off = h :=
  (load_append_add ha _ 0).trans (load_bytes h r)

theorem load_drop (l : List UInt8) (n i : ℕ) : load (l.drop n) i = load l (n + i) := by
  simp only [load, Nat.add_assoc, load8_drop, load16_drop, load32_drop, In6Addr.load_drop]

theorem load_slice (l : List UInt8) (off : ℕ) : load (slice l off 40) 0 = load l off := by
  rw [load, load32_slice (by omega), load16_slice (by omega), load8_slice (by omega),
    load8_slice (by omega), In6Addr.load_slice (by omega), In6Addr.load_slice (by omega), load]
  rfl

end Ipv6hdr

/-- `struct frag_hdr`. -/
@[ext] structure FragHdr where
  nexthdr : UInt8
  reserved : UInt8
  fragOff : UInt16
  identification : UInt32
  deriving DecidableEq, Repr

namespace FragHdr

/-- The eight bytes of the header. -/
def bytes (h : FragHdr) : List UInt8 :=
  [h.nexthdr, h.reserved] ++ (le16Bytes h.fragOff ++ le32Bytes h.identification)

/-- The header at position `off`. -/
def load (l : List UInt8) (off : ℕ) : FragHdr where
  nexthdr := load8 l off
  reserved := load8 l (off + 1)
  fragOff := load16 l (off + 2)
  identification := load32 l (off + 4)

@[simp] theorem length_bytes (h : FragHdr) : h.bytes.length = 8 := rfl

theorem load_bytes (h : FragHdr) (r : List UInt8) : load (h.bytes ++ r) 0 = h := by
  ext1
  · rfl
  · rfl
  · exact le16_bytes h.fragOff
  · exact le32_bytes h.identification

theorem bytes_load {l : List UInt8} {off : ℕ} (h : off + 8 ≤ l.length) :
    (load l off).bytes = slice l off 8 := by
  rw [slice_add l off 1 7, slice_add l (off + 1) 1 6, slice_add l (off + 1 + 1) 2 4,
    slice_one (by omega), slice_one (by omega), slice_two (by omega), slice_four (by omega)]
  rfl

theorem load_append_add {a : List UInt8} {off : ℕ} (ha : a.length = off) (l : List UInt8)
    (i : ℕ) : load (a ++ l) (off + i) = load l i := by
  simp only [load, Nat.add_assoc, load8_append_add ha, load16_append_add ha,
    load32_append_add ha]

/-- A header behind other bytes is read back. -/
theorem load_append_bytes {a : List UInt8} {off : ℕ} (ha : a.length = off) (h : FragHdr)
    (r : List UInt8) : load (a ++ (h.bytes ++ r)) off = h :=
  (load_append_add ha _ 0).trans (load_bytes h r)

theorem load_drop (l : List UInt8) (n i : ℕ) : load (l.drop n) i = load l (n + i) := by
  simp only [load, Nat.add_assoc, load8_drop, load16_drop, load32_drop]

theorem load_slice (l : List UInt8) (off : ℕ) : load (slice l off 8) 0 = load l off := by
  rw [load, load8_slice (by omega), load8_slice (by omega), load16_slice (by omega),
    load32_slice (by omega), load]
  rfl

end FragHdr

/-! ## ICMP and the IPv6 pseudo-header -/

/-- The union in `struct icmphdr`, by the member written. -/
inductive IcmpUn
  | gateway (g : UInt32)
  | frag (unused mtu : UInt16)
  deriving DecidableEq, Repr

/-- The four bytes of the union. -/
def IcmpUn.bytes : IcmpUn → List UInt8
  | .gateway g => le32Bytes g
  | .frag unused mtu => le16Bytes unused ++ le16Bytes mtu

@[simp] theorem IcmpUn.length_bytes (u : IcmpUn) : u.bytes.length = 4 := by
  cases u <;> rfl

/-- `struct icmphdr`. -/
structure Icmphdr where
  type : UInt8
  code : UInt8
  checksum : UInt16
  un : IcmpUn
  deriving DecidableEq, Repr

/-- The eight bytes of the header. -/
def Icmphdr.bytes (h : Icmphdr) : List UInt8 :=
  [h.type, h.code] ++ (le16Bytes h.checksum ++ h.un.bytes)

@[simp] theorem Icmphdr.length_bytes (h : Icmphdr) : h.bytes.length = 8 := by
  simp [Icmphdr.bytes]

/-- `struct pseudo6`. -/
structure Pseudo6 where
  saddr : In6Addr
  daddr : In6Addr
  len : UInt32
  nexthdr : UInt32
  deriving DecidableEq, Repr

/-- The forty bytes of the pseudo-header. -/
def Pseudo6.bytes (p : Pseudo6) : List UInt8 :=
  p.saddr.bytes ++ (p.daddr.bytes ++ (le32Bytes p.len ++ le32Bytes p.nexthdr))

@[simp] theorem Pseudo6.length_bytes (p : Pseudo6) : p.bytes.length = 40 := rfl

end CiliumClat
