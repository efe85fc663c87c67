import CiliumClat.Translation.Egress
import CiliumClat.Translation.Ingress
import Mathlib.Data.Nat.Bitwise

/-!
# Header fields as numbers

The programs pack and unpack flags, offsets and lengths with shifts and masks on byte-swapped
words.  Statements about packets are about the numbers: here are the fields of the headers as
natural numbers and truth values, in the units of the formats, and what the shifts and masks of
the two programs come to.
-/

namespace CiliumClat

open ByteList

/-! ## The fields -/

namespace Iphdr

/-- Total length. -/
def length (h : Iphdr) : ℕ := (bpfNtohs h.totLen).toNat

/-- Header length in bytes. -/
def headerLength (h : Iphdr) : ℕ := 4 * h.ihl.toNat

/-- Fragment offset in units of eight bytes. -/
def offset (h : Iphdr) : ℕ := (bpfNtohs h.fragOff).toNat % 8192

/-- The More Fragments flag. -/
def more (h : Iphdr) : Bool := (bpfNtohs h.fragOff).toNat.testBit 13

/-- The Don't Fragment flag. -/
def dontFragment (h : Iphdr) : Bool := (bpfNtohs h.fragOff).toNat.testBit 14

/-- Identification. -/
def ident (h : Iphdr) : ℕ := (bpfNtohs h.id).toNat

/-- A fragment: more fragments follow, or some came before. -/
def IsFragment (h : Iphdr) : Prop := h.more = true ∨ h.offset ≠ 0

instance (h : Iphdr) : Decidable h.IsFragment :=
  inferInstanceAs (Decidable (_ ∨ _))

end Iphdr

namespace Ipv6hdr

/-- Payload length. -/
def length (h : Ipv6hdr) : ℕ := (bpfNtohs h.payloadLen).toNat

/-- Traffic class. -/
def trafficClass (h : Ipv6hdr) : ℕ := (bpfNtohl h.vtcFlow).toNat / 2 ^ 20 % 256

/-- Flow label. -/
def flowLabel (h : Ipv6hdr) : ℕ := (bpfNtohl h.vtcFlow).toNat % 2 ^ 20

end Ipv6hdr

namespace FragHdr

/-- Fragment offset in units of eight bytes. -/
def offset (h : FragHdr) : ℕ := (bpfNtohs h.fragOff).toNat / 8

/-- The M flag. -/
def more (h : FragHdr) : Bool := (bpfNtohs h.fragOff).toNat.testBit 0

/-- Identification. -/
def ident (h : FragHdr) : ℕ := (bpfNtohl h.identification).toNat

end FragHdr

/-! ## Masks and shifts -/

theorem toNat_and_ipOffset (w : UInt16) : (w &&& ipOffset).toNat = w.toNat % 8192 := by
  rw [UInt16.toNat_and]
  exact Nat.and_two_pow_sub_one_eq_mod w.toNat 13

theorem and_ipMf_ne_zero (w : UInt16) : (w &&& ipMf != 0) = w.toNat.testBit 13 := by
  have hand : (w &&& ipMf).toNat = (w.toNat.testBit 13).toNat * 8192 := by
    rw [UInt16.toNat_and]
    exact Nat.and_two_pow w.toNat 13
  rw [Bool.eq_iff_iff, bne_iff_ne, ne_eq, ← UInt16.toNat_inj, hand, UInt16.toNat_zero]
  cases w.toNat.testBit 13 <;> decide

theorem testBit_13_iff (n : ℕ) : n.testBit 13 = true ↔ n / 8192 % 2 = 1 := by
  rw [Nat.testBit_eq_decide_div_mod_eq, decide_eq_true_iff]

/-- The test for a fragment. -/
theorem and_ipMf_or_ipOffset_ne_zero (w : UInt16) :
    (w &&& (ipMf ||| ipOffset) != 0) = true ↔ w.toNat.testBit 13 = true ∨ w.toNat % 8192 ≠ 0 := by
  have hmask : ipMf ||| ipOffset = 0x3fff := by decide
  have hand : (w &&& 0x3fff).toNat = w.toNat % 16384 := by
    rw [UInt16.toNat_and]
    exact Nat.and_two_pow_sub_one_eq_mod w.toNat 14
  rw [hmask, bne_iff_ne, ne_eq, ← UInt16.toNat_inj, hand, UInt16.toNat_zero, testBit_13_iff]
  omega

/-- Offset and M flag packed into a Fragment header. -/
theorem toNat_shiftLeft_or_flag (w : UInt16) (hw : w.toNat < 8192) (b : Bool) :
    (w <<< (3 : UInt16) ||| if b then 1 else 0).toNat = 8 * w.toNat + b.toNat := by
  have hb : (if b then 1 else 0 : UInt16).toNat = b.toNat := by
    cases b <;> rfl
  have hshift : (w <<< (3 : UInt16)).toNat = w.toNat <<< 3 := by
    rw [UInt16.toNat_shiftLeft, Nat.shiftLeft_eq, Nat.shiftLeft_eq]
    show w.toNat * 8 % 65536 = w.toNat * 8
    omega
  rw [UInt16.toNat_or, hb, hshift, ← Nat.shiftLeft_add_eq_or_of_lt, Nat.shiftLeft_eq]
  · omega
  · cases b <;> decide

/-- Offset and M flag packed into IPv4 flags. -/
theorem toNat_frag4Of (fo : UInt16) :
    (frag4Of fo).toNat = fo.toNat / 8 + if fo.toNat.testBit 0 then 8192 else 0 := by
  have hlt := fo.toNat_lt
  have hand : (fo &&& 1).toNat = fo.toNat % 2 := by
    rw [UInt16.toNat_and]
    exact Nat.and_two_pow_sub_one_eq_mod fo.toNat 1
  have hshift : (fo >>> (3 : UInt16)).toNat = fo.toNat / 8 := by
    rw [UInt16.toNat_shiftRight]
    exact Nat.shiftRight_eq_div_pow fo.toNat 3
  have hflag : fo &&& 1 ≠ 0 ↔ fo.toNat.testBit 0 = true := by
    rw [ne_eq, ← UInt16.toNat_inj, hand, UInt16.toNat_zero, Nat.testBit_zero, decide_eq_true_iff]
    omega
  rw [frag4Of, UInt16.toNat_or, hshift]
  by_cases hmf : fo.toNat.testBit 0 = true
  · rw [if_pos (hflag.mpr hmf), if_pos hmf, Nat.or_comm]
    have hor := Nat.two_pow_add_eq_or_of_lt (i := 13) (b := fo.toNat / 8) (by omega) 1
    exact hor.symm.trans (Nat.add_comm _ _)
  · rw [if_neg (hflag.not.mpr hmf), if_neg hmf]
    exact Nat.or_zero _

/-! ## What egress reads and writes -/

variable {c : Constants} {ip4 : Iphdr}

theorem egressVars_isFrag : (egressVars ip4).isFrag = true ↔ ip4.IsFragment :=
  and_ipMf_or_ipOffset_ne_zero _

theorem egressVars_isFrag_eq_false (h : ¬ ip4.IsFragment) : (egressVars ip4).isFrag = false :=
  Bool.eq_false_iff.mpr (egressVars_isFrag.not.mpr h)

theorem egressVars_first : (egressVars ip4).first = true ↔ ip4.offset = 0 := by
  rw [egressVars, beq_iff_eq, ← UInt16.toNat_inj, toNat_and_ipOffset, UInt16.toNat_zero]
  rfl

theorem egressVars_mf : (egressVars ip4).mf = ip4.more :=
  and_ipMf_ne_zero _

theorem egressVars_ihl : (egressVars ip4).ihl = ip4.headerLength :=
  Nat.mul_comm _ _

theorem egressVars_l4len : (egressVars ip4).l4len = ip4.length - ip4.headerLength := by
  rw [← egressVars_ihl]
  rfl

theorem egressVars_l4len_lt (ip4 : Iphdr) : (egressVars ip4).l4len < 65536 :=
  lt_of_le_of_lt (Nat.sub_le _ _) (bpfNtohs ip4.totLen).toNat_lt

/-- Only a fragment gets a Fragment header. -/
theorem h6_nexthdr_ne_fragment {v : EgressVars} (hfrag : ¬ v.isFrag = true)
    (hext : isExtHdr v.nh6 = false) : (v.h6 c).nexthdr ≠ ipprotoFragment := by
  intro hfragment
  have hnh : (v.h6 c).nexthdr = v.nh6 := if_neg hfrag
  rw [← hnh, hfragment] at hext
  exact absurd hext (by decide)

/-- The Fragment header carries offset, flag and identification of the IPv4 fragment. -/
theorem toNat_fh_fragOff :
    (bpfNtohs (egressVars ip4).fh.fragOff).toNat = 8 * ip4.offset + ip4.more.toNat := by
  have hoff : ((egressVars ip4).fragOff &&& ipOffset).toNat = ip4.offset := toNat_and_ipOffset _
  have hlt : ip4.offset < 8192 := Nat.mod_lt _ (by decide)
  show (bswap16 (bswap16 _)).toNat = _
  rw [bswap16_bswap16, toNat_shiftLeft_or_flag _ (by rwa [hoff]), hoff, egressVars_mf]

theorem fh_offset : (egressVars ip4).fh.offset = ip4.offset := by
  rw [FragHdr.offset, toNat_fh_fragOff]
  cases ip4.more
  · exact Nat.mul_div_cancel_left _ (by decide)
  · show (8 * ip4.offset + 1) / 8 = ip4.offset
    omega

theorem fh_more : (egressVars ip4).fh.more = ip4.more := by
  rw [FragHdr.more, toNat_fh_fragOff, Nat.testBit_zero]
  cases ip4.more
  · show decide ((8 * ip4.offset + 0) % 2 = 1) = false
    rw [decide_eq_false_iff_not]
    omega
  · show decide ((8 * ip4.offset + 1) % 2 = 1) = true
    rw [decide_eq_true_iff]
    omega

theorem fh_ident : (egressVars ip4).fh.ident = ip4.ident := by
  show (bswap32 (bswap32 _)).toNat = _
  rw [bswap32_bswap32, UInt16.toNat_toUInt32]
  rfl

/-- The first word of the IPv6 header: version, traffic class and flow label. -/
theorem toNat_h6_vtcFlow (v : EgressVars) :
    (bpfNtohl (v.h6 c).vtcFlow).toNat = 6 * 2 ^ 28 + v.tos.toNat * 2 ^ 20 := by
  have htos := v.tos.toNat_lt
  have hshift : (v.tos.toUInt32 <<< (20 : UInt32)).toNat = v.tos.toNat * 2 ^ 20 := by
    rw [UInt32.toNat_shiftLeft, Nat.shiftLeft_eq, UInt8.toNat_toUInt32]
    show v.tos.toNat * 1048576 % 4294967296 = v.tos.toNat * 1048576
    omega
  show (bswap32 (bswap32 _)).toNat = _
  have hor : 2 ^ 28 * 6 + v.tos.toNat * 2 ^ 20 = 2 ^ 28 * 6 ||| v.tos.toNat * 2 ^ 20 :=
    Nat.two_pow_add_eq_or_of_lt (by omega) 6
  rw [bswap32_bswap32, UInt32.toNat_or, hshift]
  exact hor.symm

theorem h6_trafficClass (v : EgressVars) : (v.h6 c).trafficClass = v.tos.toNat := by
  have htos := v.tos.toNat_lt
  rw [Ipv6hdr.trafficClass, toNat_h6_vtcFlow]
  omega

theorem h6_flowLabel (v : EgressVars) : (v.h6 c).flowLabel = 0 := by
  rw [Ipv6hdr.flowLabel, toNat_h6_vtcFlow]
  omega

theorem version_eq_div (h : Ipv6hdr) :
    h.version.toNat = (bpfNtohl h.vtcFlow).toNat / 2 ^ 28 := by
  have hlt := h.vtcFlow.toNat_lt
  have hlow : h.vtcFlow.toNat / 16777216 + 256 * (h.vtcFlow.toNat / 65536 % 256)
      + 65536 * (h.vtcFlow.toNat / 256 % 256) < 16777216 := by omega
  have htop : h.vtcFlow.toNat % 256 < 256 := Nat.mod_lt _ (by decide)
  rw [Ipv6hdr.version, BitVec.toNat_ofNat, toNat_bswap32]
  generalize h.vtcFlow.toNat / 16777216 + 256 * (h.vtcFlow.toNat / 65536 % 256)
    + 65536 * (h.vtcFlow.toNat / 256 % 256) = low at hlow ⊢
  generalize h.vtcFlow.toNat % 256 = top at htop ⊢
  omega

theorem h6_version (v : EgressVars) : (v.h6 c).version = 6 := by
  have htos := v.tos.toNat_lt
  rw [← BitVec.toNat_inj, version_eq_div, toNat_h6_vtcFlow]
  show (6 * 2 ^ 28 + v.tos.toNat * 2 ^ 20) / 2 ^ 28 = 6
  omega

/-- The payload length does not wrap: an IPv4 packet has at least twenty bytes of header. -/
theorem h6_length (h : HeaderAccepted c ip4) :
    ((egressVars ip4).h6 c).length =
      ip4.length - ip4.headerLength + if ip4.IsFragment then fragHlen else 0 := by
  have hlt := (bpfNtohs ip4.totLen).toNat_lt
  have hihl := h.ihl
  have hfrag : (if (egressVars ip4).isFrag = true then fragHlen else 0) =
      if ip4.IsFragment then fragHlen else 0 := if_congr egressVars_isFrag rfl rfl
  have hle : (if ip4.IsFragment then fragHlen else 0) ≤ 8 := by
    split <;> decide
  rw [egressVars_ihl] at hihl
  show (bswap16 (bswap16 _)).toNat = _
  rw [bswap16_bswap16, UInt16.toNat_ofNat', egressVars_l4len, hfrag, Nat.mod_eq_of_lt]
  have hlen : ip4.length < 65536 := hlt
  have hihl' : 20 ≤ ip4.headerLength := hihl
  omega

/-! ## What ingress reads and writes -/

variable {k : Kernel} {ip6 : Ipv6hdr} {sa da : In6Addr} {mapped : Bool} {fh : FragHdr}

theorem toNat_trafficClass (h : Ipv6hdr) :
    (bpfNtohl h.vtcFlow >>> (20 : UInt32)).toUInt8.toNat = h.trafficClass := by
  have hshift : (bpfNtohl h.vtcFlow >>> (20 : UInt32)).toNat
      = (bpfNtohl h.vtcFlow).toNat / 2 ^ 20 := by
    rw [UInt32.toNat_shiftRight]
    exact Nat.shiftRight_eq_div_pow _ 20
  rw [UInt32.toNat_toUInt8, hshift]
  rfl

theorem frag4Of_offset (fo : UInt16) : (frag4Of fo).toNat % 8192 = fo.toNat / 8 := by
  have hlt := fo.toNat_lt
  rw [toNat_frag4Of]
  split <;> omega

theorem frag4Of_more (fo : UInt16) : (frag4Of fo).toNat.testBit 13 = fo.toNat.testBit 0 := by
  have hlt := fo.toNat_lt
  rw [toNat_frag4Of, Bool.eq_iff_iff, testBit_13_iff]
  split
  · next h =>
    refine iff_of_true ?_ h
    omega
  · next h =>
    refine iff_of_false ?_ h
    omega

theorem frag4Of_dontFragment (fo : UInt16) : (frag4Of fo).toNat.testBit 14 = false := by
  have hlt := fo.toNat_lt
  rw [toNat_frag4Of, Nat.testBit_eq_decide_div_mod_eq, decide_eq_false_iff_not]
  split <;> omega

theorem fragVars_first : (fragVars ip6 fh sa da mapped).first = true ↔ fh.offset = 0 := by
  have hshift : (bpfNtohs fh.fragOff >>> (3 : UInt16)).toNat = fh.offset := by
    rw [UInt16.toNat_shiftRight]
    exact Nat.shiftRight_eq_div_pow _ 3
  rw [fragVars, beq_iff_eq, ← UInt16.toNat_inj, hshift, UInt16.toNat_zero]

/-! ## Header checksums -/

/-- **A header checksum that is filled in verifies.** -/
theorem withCheck_verifies (hk : k.Lawful) {h : Iphdr} (hv : h.version = 4) :
    OnesComplement.Verifies (withCheck k h).bytes := by
  have hdiff := hk.csumDiff [] { h with check := 0 }.bytes 0 rfl
    (by rw [Iphdr.length_bytes])
  have hsum : (OnesComplement.leSum (withCheck k h).bytes : ZMod 65535) = 0 := by
    rw [withCheck, Iphdr.leSum_bytes_check]
    push_cast
    rw [cast_csumFold, hdiff, OnesComplement.leSum, UInt32.toNat_zero]
    push_cast
    ring
  constructor
  · have hlt := h.ihl.isLt
    have hbyte : (UInt8.ofNat (16 * (4 : BitVec 4).toNat + h.ihl.toNat)).toNat
        = 64 + h.ihl.toNat := by
      rw [UInt8.toNat_ofNat']
      show (64 + h.ihl.toNat) % 256 = _
      omega
    have hfirst : (withCheck k h).bytes =
        UInt8.ofNat (16 * (4 : BitVec 4).toNat + h.ihl.toNat) :: h.tos ::
          (withCheck k h).bytes.drop 2 := by
      rw [← hv]
      rfl
    rw [hfirst, OnesComplement.sum16, hbyte]
    omega
  · have hmod := OnesComplement.cast_sum16 (withCheck k h).bytes
    rw [hsum, mul_zero] at hmod
    exact Nat.mod_eq_zero_of_dvd ((ZMod.natCast_eq_zero_iff _ _).mp hmod)

end CiliumClat
