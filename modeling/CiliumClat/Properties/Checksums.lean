import CiliumClat.Properties.Headers

/-!
# Transport checksums

A transport checksum is never recomputed where it can be updated: each program takes the
difference between what the checksum covered before and what it covers afterwards, and adds it to
the field.  The statement that nothing was forgotten is that the *residual* stays the same: the
ones'-complement sum of pseudo-header and transport bytes, which is zero modulo `65535` for a
packet whose checksum verifies.  It holds whether or not the checksum was right to begin with.

For TCP and UDP the pseudo-headers differ in the addresses only.  An ICMPv6 checksum covers a
pseudo-header and an ICMPv4 checksum does not, and the type byte changes.  In an ICMPv6 error
everything in front of the quoted transport header is replaced, and the quoted checksum is changed
too: there the running difference `d` of the source has to have one term for each byte stored
(`innerIcmpBytes_balance`, `innerCsumBytes_balance`).
-/

namespace CiliumClat

open ByteList OnesComplement EarlyExit

variable {k : Kernel} {c : Constants} {s : State}

/-! ## Pseudo-headers and residuals -/

/-- The IPv4 pseudo-header in front of `n` bytes of transport data. -/
def pseudo4 (ip4 : Iphdr) (n : ℕ) : List UInt8 :=
  le32Bytes ip4.saddr ++ (le32Bytes ip4.daddr ++ ([0, ip4.protocol] ++ be16Bytes n))

/-- The IPv6 pseudo-header in front of `n` bytes of transport data. -/
def pseudo6 (ip6 : Ipv6hdr) (n : ℕ) : List UInt8 :=
  ip6.saddr.bytes ++ (ip6.daddr.bytes ++ (be32Bytes n ++ [0, 0, 0, ip6.nexthdr]))

/-- The transport bytes of an IPv4 frame. -/
def transportBytes4 (data : List UInt8) : List UInt8 :=
  data.drop (ethHlen + (Iphdr.load data ethHlen).headerLength)

/-- The transport bytes of an IPv6 frame without extension headers. -/
def transportBytes6 (data : List UInt8) : List UInt8 :=
  data.drop (ethHlen + ip6Hlen)

/-- The parts of a frame that egress has translated. -/
theorem egressFrame_parts {st : IpSummed} {data q : List UInt8}
    (h : egressFrame k c st data = .ok q) :
    ethHlen + ip4Hlen ≤ data.length ∧ HeaderAccepted c (Iphdr.load data ethHlen) ∧
      ∃ l4, egressPayload k c st (egressVars (Iphdr.load data ethHlen)) (transportBytes4 data)
          = .ok l4 ∧
        q = (data.take 12 ++ le16Bytes (bpfHtons ethPIpv6)) ++
          (((egressVars (Iphdr.load data ethHlen)).h6 c).bytes ++
            ((egressVars (Iphdr.load data ethHlen)).fragBytes ++ l4)) := by
  obtain ⟨hlen, hacc, -, -, l4, hl4, rfl⟩ := egressFrame_eq_ok.mp h
  have hpay : payload4 data = transportBytes4 data := by
    rw [payload4, egressVars_ihl]
    rfl
  rw [hpay] at hl4
  refine ⟨hlen, hacc, l4, hl4, ?_⟩
  rw [egressHeaders]
  simp only [List.append_assoc]

/-- **The parts of a packet that egress has translated**: the IPv6 header, and behind it the
Fragment header of a fragment and the transport bytes. -/
theorem EgressTranslates.parts (hk : k.Lawful) (h : EgressTranslates k c s) :
    HeaderAccepted c (Iphdr.load s.skb.data ethHlen) ∧
      Ipv6hdr.load (clatEgress k c s).2.skb.data ethHlen =
        (egressVars (Iphdr.load s.skb.data ethHlen)).h6 c ∧
      ∃ l4, egressPayload k c s.skb.ipSummed (egressVars (Iphdr.load s.skb.data ethHlen))
          (transportBytes4 s.skb.data) = .ok l4 ∧
        (clatEgress k c s).2.skb.data.drop (ethHlen + ip6Hlen) =
          (egressVars (Iphdr.load s.skb.data ethHlen)).fragBytes ++ l4 := by
  obtain ⟨hlen, hacc, l4, hl4, hout⟩ := egressFrame_parts (h.out hk)
  have hhd := length_macHeader (le_trans (by decide) hlen) (bpfHtons ethPIpv6)
  rw [hout]
  refine ⟨hacc, Ipv6hdr.load_append_bytes hhd _ _, l4, hl4, ?_⟩
  rw [drop_append_add hhd, List.drop_left' (Ipv6hdr.length_bytes _)]

/-- The residual of an IPv4 frame: an ICMP checksum covers no pseudo-header. -/
def residual4 (data : List UInt8) : ℕ :=
  (if (Iphdr.load data ethHlen).protocol = ipprotoIcmp then 0
    else sum16 (pseudo4 (Iphdr.load data ethHlen) (transportBytes4 data).length)) +
    sum16 (transportBytes4 data)

/-- The residual of an IPv6 frame without extension headers. -/
def residual6 (data : List UInt8) : ℕ :=
  sum16 (pseudo6 (Ipv6hdr.load data ethHlen) (transportBytes6 data).length) +
    sum16 (transportBytes6 data)

/-- A TCP segment, a UDP datagram with a checksum, or an ICMP echo. -/
def Checksummed4 (protocol : UInt8) (l4 : List UInt8) : Prop :=
  protocol = ipprotoTcp ∨ protocol = ipprotoUdp ∧ load16 l4 6 ≠ 0 ∨
    protocol = ipprotoIcmp ∧ (load8 l4 0 = icmpEcho ∨ load8 l4 0 = icmpEchoreply)

instance (protocol : UInt8) (l4 : List UInt8) : Decidable (Checksummed4 protocol l4) :=
  inferInstanceAs (Decidable (_ ∨ _))

/-- A TCP segment, a UDP datagram with a checksum, or an ICMPv6 echo. -/
def Checksummed6 (nexthdr : UInt8) (l4 : List UInt8) : Prop :=
  nexthdr = ipprotoTcp ∨ nexthdr = ipprotoUdp ∧ load16 l4 6 ≠ 0 ∨
    nexthdr = ipprotoIcmpv6 ∧ IsEcho6 (load8 l4 0)

instance (nexthdr : UInt8) (l4 : List UInt8) : Decidable (Checksummed6 nexthdr l4) :=
  inferInstanceAs (Decidable (_ ∨ _))

/-! ## Their values -/

theorem cast_leSum_pseudo4 (ip4 : Iphdr) (n : ℕ) :
    (leSum (pseudo4 ip4 n) : ZMod 65535) =
      leSum (le32Bytes ip4.saddr ++ le32Bytes ip4.daddr) +
        (leSum [0, ip4.protocol] + leSum (be16Bytes n)) := by
  rw [pseudo4, ← List.append_assoc,
    leSum_append (l := le32Bytes ip4.saddr ++ le32Bytes ip4.daddr) (by simp),
    leSum_append (l := [0, ip4.protocol]) (by simp)]
  push_cast
  rfl

/-- A length of sixteen bits in thirty-two. -/
theorem leSum_be32Bytes {n : ℕ} (hn : n < 65536) : leSum (be32Bytes n) = leSum (be16Bytes n) := by
  have h₁ : n / 16777216 = 0 := by omega
  have h₂ : n / 65536 = 0 := by omega
  rw [be32Bytes, h₁, h₂, be16Bytes]
  simp only [leSum, UInt8.toNat_ofNat']
  omega

theorem cast_leSum_pseudo6 (ip6 : Ipv6hdr) {n : ℕ} (hn : n < 65536) :
    (leSum (pseudo6 ip6 n) : ZMod 65535) =
      leSum (ip6.saddr.bytes ++ ip6.daddr.bytes) +
        (leSum [0, ip6.nexthdr] + leSum (be16Bytes n)) := by
  -- the length has two leading zero bytes, and the next header two more
  have hnh : leSum [0, 0, 0, ip6.nexthdr] = leSum [0, ip6.nexthdr] := by
    simp only [leSum, UInt8.toNat_zero]
    omega
  rw [pseudo6, ← List.append_assoc,
    leSum_append (l := ip6.saddr.bytes ++ ip6.daddr.bytes) (by simp),
    leSum_append (l := be32Bytes n) (by simp [be32Bytes]), leSum_be32Bytes hn, hnh]
  push_cast
  ring

theorem leSum_typeWord (type code : UInt8) :
    leSum (le32Bytes (typeWord type code)) = type.toNat + 256 * code.toNat := by
  have ht := type.toNat_lt
  have hc := code.toNat_lt
  have hword : type.toUInt32 <<< (24 : UInt32) ||| code.toUInt32 <<< (16 : UInt32)
      = UInt32.ofNat (16777216 * type.toNat + 65536 * code.toNat) := by
    have h₁ : (type.toUInt32 <<< (24 : UInt32)).toNat = 16777216 * type.toNat := by
      rw [UInt32.toNat_shiftLeft, Nat.shiftLeft_eq, UInt8.toNat_toUInt32]
      show type.toNat * 16777216 % 4294967296 = _
      omega
    have h₂ : (code.toUInt32 <<< (16 : UInt32)).toNat = 65536 * code.toNat := by
      rw [UInt32.toNat_shiftLeft, Nat.shiftLeft_eq, UInt8.toNat_toUInt32]
      show code.toNat * 65536 % 4294967296 = _
      omega
    have hor : 2 ^ 24 * type.toNat + 65536 * code.toNat
        = 2 ^ 24 * type.toNat ||| 65536 * code.toNat :=
      Nat.two_pow_add_eq_or_of_lt (by omega) _
    rw [← UInt32.toNat_inj, UInt32.toNat_or, h₁, h₂, UInt32.toNat_ofNat']
    refine hor.symm.trans ?_
    show 16777216 * type.toNat + 65536 * code.toNat = _ % 4294967296
    omega
  rw [typeWord, hword, le32Bytes_bswap32_ofNat, be32Bytes]
  simp only [leSum, UInt8.toNat_ofNat']
  omega

/-- A difference between two type words is the difference between the types. -/
theorem cast_csumDiff_typeWord (hk : k.Lawful) (t t' code : UInt8) (seed : UInt32) :
    ((k.csumDiff (le32Bytes (typeWord t code)) (le32Bytes (typeWord t' code)) seed).toNat
      : ZMod 65535) = seed.toNat + (t'.toNat - t.toNat) := by
  rw [hk.csumDiff _ _ _ (by simp) (by simp), leSum_typeWord, leSum_typeWord]
  push_cast
  ring

theorem cast_word16Diff (hk : k.Lawful) (oc nc : UInt16) (d : UInt32) :
    ((word16Diff k oc nc d).toNat : ZMod 65535) = d.toNat + (nc.toNat - oc.toNat) := by
  have hword : ∀ w : UInt16, leSum (le32Bytes (word16 w)) = w.toNat := by
    intro w
    rw [le32Bytes_word16, leSum_append (by simp), leSum_le16Bytes]
    rfl
  rw [word16Diff, hk.csumDiff _ _ _ (by simp) (by simp), hword, hword]
  ring

/-- Overwriting the first byte. -/
theorem cast_leSum_splice_head {l : List UInt8} (h : 1 ≤ l.length) (b : UInt8) :
    (leSum (splice l 0 [b]) : ZMod 65535) = leSum l + (b.toNat - (load8 l 0).toNat) := by
  have hs : leSum (splice l 0 [b]) + leSum (slice l 0 1) = leSum l + leSum [b] :=
    leSum_splice (by rfl) h
  rw [slice_one h] at hs
  have hc := congrArg (Nat.cast (R := ZMod 65535)) hs
  simp only [leSum] at hc
  push_cast at hc
  linear_combination hc

theorem IpSummed.sign_of_ne {st : IpSummed} (h : st ≠ .checksumPartial) : st.sign = -1 := by
  cases st with
  | checksumPartial => exact absurd rfl h
  | _ => rfl

/-- The pseudo-header the programs sum is the one of the packet. -/
theorem pseudo6_bytes (sa da : In6Addr) (n : ℕ) (nh : UInt8) :
    Pseudo6.bytes ⟨sa, da, bpfHtonl (UInt32.ofNat n), bpfHtonl nh.toUInt32⟩ =
      sa.bytes ++ (da.bytes ++ (be32Bytes n ++ [0, 0, 0, nh])) := by
  have hnh : le32Bytes (bpfHtonl nh.toUInt32) = [0, 0, 0, nh] := by
    have hlt := nh.toNat_lt
    have hword : nh.toUInt32 = UInt32.ofNat nh.toNat := by
      rw [← UInt32.toNat_inj, UInt8.toNat_toUInt32, UInt32.toNat_ofNat',
        Nat.mod_eq_of_lt (by omega)]
    have h₁ : nh.toNat / 16777216 = 0 := by omega
    have h₂ : nh.toNat / 65536 = 0 := by omega
    have h₃ : nh.toNat / 256 = 0 := by omega
    rw [hword, le32Bytes_bswap32_ofNat, be32Bytes, h₁, h₂, h₃, UInt8.ofNat_toNat]
    rfl
  rw [Pseudo6.bytes, hnh, le32Bytes_bswap32_ofNat]

/-! ## The checksum of TCP and UDP -/

/-- TCP, or UDP with a checksum. -/
def HasChecksum (protocol : UInt8) (l4 : List UInt8) : Prop :=
  protocol = ipprotoTcp ∨ protocol = ipprotoUdp ∧ load16 l4 6 ≠ 0

instance (protocol : UInt8) (l4 : List UInt8) : Decidable (HasChecksum protocol l4) :=
  inferInstanceAs (Decidable (_ ∨ _))

/-- Where the checksum of a transport header is. -/
def csumOffset (protocol : UInt8) : ℕ :=
  if protocol = ipprotoTcp then 16 else if protocol = ipprotoUdp then 6 else 2

/-- The flags with which both programs update the checksum of TCP and of UDP. -/
def csumFlags (protocol : UInt8) : CsumFlags :=
  if protocol = ipprotoTcp then pseudoHdr else pseudoHdrMangled0

/-- The update of the transport checksum by the difference `d`. -/
def updateTransport (st : IpSummed) (protocol : UInt8) (d : UInt32) (l4 : List UInt8) :
    List UInt8 :=
  updateCsum st (csumFlags protocol) d (csumOffset protocol) l4

section Update

variable {st : IpSummed} {protocol : UInt8} {d : UInt32} {l4 out : List UInt8}

theorem csumFlags_pseudoHdr (protocol : UInt8) : (csumFlags protocol).pseudoHdr = true := by
  rw [csumFlags]
  split
  · rfl
  · rfl

theorem HasChecksum.ne_icmp (h : HasChecksum protocol l4) :
    protocol ≠ ipprotoIcmp ∧ protocol ≠ ipprotoIcmpv6 := by
  rcases h with rfl | ⟨rfl, -⟩
  · decide
  · decide

theorem HasChecksum.csumOffset_even (h : HasChecksum protocol l4) :
    csumOffset protocol % 2 = 0 := by
  rcases h with rfl | ⟨rfl, -⟩
  · rfl
  · rfl

/-- The update does not leave the checksum alone. -/
theorem HasChecksum.not_skipped (h : HasChecksum protocol l4) :
    ¬ ((csumFlags protocol).markMangled0 ∧ ¬ (csumFlags protocol).markEnforce ∧
      load16 l4 (csumOffset protocol) = 0) := by
  rcases h with rfl | ⟨rfl, hnz⟩
  · exact fun hz => Bool.false_ne_true hz.1
  · exact fun hz => hnz hz.2.2

/-- A UDP datagram with a checksum keeps one: the update never writes a null checksum. -/
theorem HasChecksum.update (h : HasChecksum protocol l4)
    (hlen : csumOffset protocol + 2 ≤ l4.length) (st : IpSummed) (d : UInt32) :
    HasChecksum protocol (updateTransport st protocol d l4) := by
  rcases h with htcp | ⟨rfl, hnz⟩
  · exact Or.inl htcp
  · refine Or.inr ⟨rfl, ?_⟩
    have hfield : load16 (updateTransport st ipprotoUdp d l4) 6
        = l4CsumField st pseudoHdrMangled0 (load16 l4 6) d := load16_splice_self hlen _
    rw [hfield]
    exact l4CsumField_ne_zero rfl (Or.inr hnz) _

theorem length_updateTransport (hlen : csumOffset protocol + 2 ≤ l4.length) :
    (updateTransport st protocol d l4).length = l4.length :=
  length_updateCsum hlen

theorem cast_leSum_updateTransport (h : HasChecksum protocol l4)
    (hlen : csumOffset protocol + 2 ≤ l4.length) :
    (leSum (updateTransport st protocol d l4) : ZMod 65535) = leSum l4 + st.sign * d.toNat :=
  cast_leSum_updateCsum h.csumOffset_even hlen (csumFlags_pseudoHdr _) h.not_skipped

theorem cast_load16_updateTransport (h : HasChecksum protocol l4)
    (hlen : csumOffset protocol + 2 ≤ l4.length) :
    ((load16 (updateTransport st protocol d l4) (csumOffset protocol)).toNat : ZMod 65535)
      = (load16 l4 (csumOffset protocol)).toNat + st.sign * d.toNat :=
  cast_load16_updateCsum hlen (csumFlags_pseudoHdr _) h.not_skipped

/-- **Egress updates the checksum of TCP and UDP.** -/
theorem egressPayload_checksum {p : Iphdr} (hoff : p.offset = 0) (h : HasChecksum p.protocol l4) :
    egressPayload k c st (egressVars p) l4 = .ok out ↔ csumOffset p.protocol + 2 ≤ l4.length ∧
      out = updateTransport st p.protocol (egressDiff k c (egressVars p)) l4 := by
  have hproto : (egressVars p).proto = p.protocol := rfl
  rw [egressPayload, if_pos (egressVars_first.mpr hoff), egressL4Bytes, hproto, updateTransport]
  rcases h with htcp | ⟨hudp, hnz⟩
  · rw [htcp]
    exact csumAt_eq_ok
  · rw [hudp]
    exact egressUdpBytes_of_ne_zero hnz

theorem egressPayload_icmp {p : Iphdr} (hoff : p.offset = 0) (h : p.protocol = ipprotoIcmp) :
    egressPayload k c st (egressVars p) l4 = egressIcmpBytes k c st (egressVars p) l4 := by
  have hproto : (egressVars p).proto = ipprotoIcmp := h
  rw [egressPayload, if_pos (egressVars_first.mpr hoff), egressL4Bytes, hproto]
  rfl

/-- **Ingress updates the checksum of TCP and UDP.** -/
theorem ingressPayload_checksum {v : IngressVars} {x : IngressOut} (hfirst : v.first = true)
    (h : HasChecksum v.nh l4) :
    ingressPayload k c st v l4 = .ok x ↔ csumOffset v.nh + 2 ≤ l4.length ∧
      x = sameLength v (updateTransport st v.nh (ingressDiff k c v) l4) := by
  rw [ingressPayload, if_pos hfirst, ingressL4Bytes, updateTransport]
  rcases h with htcp | ⟨hudp, hnz⟩
  · rw [htcp, if_pos rfl, bind_eq_ok]
    constructor
    · rintro ⟨_, hl4, hx⟩
      obtain ⟨hlen, rfl⟩ := csumAt_eq_ok.mp hl4
      exact ⟨hlen, (Except.ok.inj hx).symm⟩
    · rintro ⟨hlen, rfl⟩
      exact ⟨_, csumAt_eq_ok.mpr ⟨hlen, rfl⟩, rfl⟩
  · rw [hudp, if_neg (by decide), if_pos rfl, bind_eq_ok]
    constructor
    · rintro ⟨_, hl4, hx⟩
      obtain ⟨hlen, -, rfl⟩ := ingressUdpBytes_eq_ok.mp hl4
      exact ⟨hlen, (Except.ok.inj hx).symm⟩
    · rintro ⟨hlen, rfl⟩
      exact ⟨_, ingressUdpBytes_eq_ok.mpr ⟨hlen, hnz, rfl⟩, rfl⟩

theorem ingressPayload_icmp {v : IngressVars} (hfirst : v.first = true)
    (h : v.nh = ipprotoIcmpv6) :
    ingressPayload k c st v l4 = ingressIcmpBytes k c st v l4 := by
  rw [ingressPayload, if_pos hfirst, ingressL4Bytes, h]
  rfl

end Update

/-! ## Egress -/

section Egress

variable {st : IpSummed} {v : EgressVars} {l4 out : List UInt8}

theorem cast_egressDiff (hk : k.Lawful) (c : Constants) (v : EgressVars) :
    ((egressDiff k c v).toNat : ZMod 65535) =
      leSum ((v.h6 c).saddr.bytes ++ (v.h6 c).daddr.bytes)
        - leSum (le32Bytes v.saddr ++ le32Bytes v.daddr) := by
  rw [egressDiff, hk.csumDiff _ _ _ (by simp) (by simp), UInt32.toNat_zero]
  push_cast
  ring

theorem cast_egressIcmpDiff (hk : k.Lawful) (hnh : (v.h6 c).nexthdr = ipprotoIcmpv6)
    (t4 t6 code : UInt8) :
    ((egressIcmpDiff k c v t4 t6 code).toNat : ZMod 65535) =
      leSum (pseudo6 (v.h6 c) v.l4len) + (t6.toNat - t4.toNat) := by
  have hp6 : (egressPseudo6 c v ipprotoIcmpv6).bytes = pseudo6 (v.h6 c) v.l4len := by
    rw [pseudo6, hnh]
    exact pseudo6_bytes _ _ _ _
  rw [egressIcmpDiff, cast_csumDiff_typeWord hk, hk.csumDiff _ _ _ (by simp) (by simp), hp6,
    UInt32.toNat_zero, leSum]
  push_cast
  ring

/-- **One update for TCP and UDP**: the IPv4 addresses out, the IPv6 addresses in. -/
theorem cast_leSum_egressCsum (hk : k.Lawful) (hst : st ≠ .checksumPartial) {ip4 : Iphdr}
    (hfrag : (egressVars ip4).isFrag = false) (hkind : HasChecksum ip4.protocol l4) {n : ℕ}
    (hn : n < 65536) (hlen : csumOffset ip4.protocol + 2 ≤ l4.length) :
    (leSum (pseudo6 ((egressVars ip4).h6 c) n) : ZMod 65535)
        + leSum (updateTransport st ip4.protocol (egressDiff k c (egressVars ip4)) l4)
      = leSum (pseudo4 ip4 n) + leSum l4 := by
  have hnh : ((egressVars ip4).h6 c).nexthdr = ip4.protocol := by
    show (if (egressVars ip4).isFrag then _ else (egressVars ip4).nh6) = _
    rw [hfrag, if_neg Bool.false_ne_true]
    exact if_neg hkind.ne_icmp.1
  have hsa : (egressVars ip4).saddr = ip4.saddr := rfl
  have hda : (egressVars ip4).daddr = ip4.daddr := rfl
  rw [cast_leSum_updateTransport hkind hlen, cast_egressDiff hk, cast_leSum_pseudo6 _ hn,
    cast_leSum_pseudo4, IpSummed.sign_of_ne hst, hnh, hsa, hda]
  ring

/-- **The update for an echo**: a pseudo-header in, and another type. -/
theorem cast_leSum_egressIcmp (hk : k.Lawful) (hst : st ≠ .checksumPartial)
    (hnh : (v.h6 c).nexthdr = ipprotoIcmpv6) (hlen : 4 ≤ l4.length) (t6 : UInt8) :
    (leSum (pseudo6 (v.h6 c) v.l4len) : ZMod 65535)
        + leSum (updateCsum st pseudoHdr
          (egressIcmpDiff k c v (load8 l4 0) t6 (load8 l4 1)) 2 (splice l4 0 [t6]))
      = leSum l4 := by
  have hone : 0 + [t6].length ≤ l4.length :=
    singleton_fits _ (by omega)
  rw [cast_leSum_updateCsum (by rfl) (by rwa [length_splice hone]) rfl
      fun h => Bool.false_ne_true h.1,
    cast_leSum_splice_head (by omega), cast_egressIcmpDiff hk hnh, IpSummed.sign_of_ne hst]
  ring

/-- A residual of an IPv6 frame made of its parts. -/
theorem cast_residual6_frame {data : List UInt8} (h : 12 ≤ data.length) (h6 : Ipv6hdr)
    (l4 : List UInt8) :
    (residual6 (data.take 12 ++ (le16Bytes (bpfHtons ethPIpv6) ++ (h6.bytes ++ l4))) : ZMod 65535)
      = 256 * (leSum (pseudo6 h6 l4.length) + leSum l4) := by
  have hhd : (data.take 12 ++ (le16Bytes (bpfHtons ethPIpv6) ++ h6.bytes)).length
      = ethHlen + ip6Hlen := by
    rw [List.length_append, List.length_append, List.length_take, length_le16Bytes,
      Ipv6hdr.length_bytes]
    simp only [ethHlen, ip6Hlen]
    omega
  have hl4 : transportBytes6 (data.take 12 ++ (le16Bytes (bpfHtons ethPIpv6) ++ (h6.bytes ++ l4)))
      = l4 := by
    rw [transportBytes6, ← List.append_assoc (le16Bytes _), ← List.append_assoc,
      List.drop_left' hhd]
  rw [residual6, hl4, ipv6hdr_load_frame data h, Nat.cast_add, cast_sum16, cast_sum16]
  ring

theorem cast_residual4 (data : List UInt8) :
    (residual4 data : ZMod 65535) =
      256 * ((if (Iphdr.load data ethHlen).protocol = ipprotoIcmp then 0
        else (leSum (pseudo4 (Iphdr.load data ethHlen) (transportBytes4 data).length) : ZMod 65535))
        + leSum (transportBytes4 data)) := by
  rw [residual4, Nat.cast_add, cast_sum16]
  split
  · rw [Nat.cast_zero]
    ring
  · rw [cast_sum16]
    ring

/-- **The payload of an unfragmented packet**: pseudo-header and payload have the same sum before
and after. -/
theorem cast_leSum_egressPayload (hk : k.Lawful) (hst : st ≠ .checksumPartial) {ip4 : Iphdr}
    (hfrag : ¬ ip4.IsFragment) (hsum : Checksummed4 ip4.protocol l4)
    (h : egressPayload k c st (egressVars ip4) l4 = .ok out) :
    (leSum (pseudo6 ((egressVars ip4).h6 c) (egressVars ip4).l4len) : ZMod 65535) + leSum out
      = (if ip4.protocol = ipprotoIcmp then 0
          else (leSum (pseudo4 ip4 (egressVars ip4).l4len) : ZMod 65535)) + leSum l4 := by
  have hisFrag := egressVars_isFrag_eq_false hfrag
  have hoff : ip4.offset = 0 := not_not.mp fun hoff => hfrag (Or.inr hoff)
  have hlt := egressVars_l4len_lt ip4
  -- TCP and UDP in one case
  rcases or_assoc.mpr hsum with hkind | ⟨hicmp, -⟩
  · obtain ⟨hin, rfl⟩ := (egressPayload_checksum hoff hkind).mp h
    rw [if_neg (HasChecksum.ne_icmp hkind).1]
    exact cast_leSum_egressCsum hk hst hisFrag hkind hlt hin
  · have hnh : ((egressVars ip4).h6 c).nexthdr = ipprotoIcmpv6 :=
      (h6_nexthdr_of_not_isFragment hfrag c).trans (if_pos hicmp)
    rw [egressPayload_icmp hoff hicmp] at h
    obtain ⟨hin, t6, -, rfl⟩ := egressIcmpBytes_eq_ok.mp h
    rw [if_pos hicmp, zero_add]
    exact cast_leSum_egressIcmp hk hst hnh hin t6

/-- The transport bytes of a frame whose length is consistent are as many as the header says. -/
theorem LengthConsistent4.length_transportBytes4 {data : List UInt8} (h : LengthConsistent4 data) :
    (transportBytes4 data).length = (egressVars (Iphdr.load data ethHlen)).l4len := by
  have h' : 14 + (Iphdr.load data ethHlen).length = data.length := h
  rw [transportBytes4, List.length_drop, egressVars_l4len]
  show data.length - (14 + _) = _
  omega

/-- The residual of an egress translation without a Fragment header. -/
theorem cast_residual6_egress {data : List UInt8} (hmac : 12 ≤ data.length)
    (hfrag : v.isFrag = false) (l4 : List UInt8) :
    (residual6 (egressHeaders c v data ++ l4) : ZMod 65535)
      = 256 * (leSum (pseudo6 (v.h6 c) l4.length) + leSum l4) := by
  have hframe : egressHeaders c v data ++ l4 =
      data.take 12 ++ (le16Bytes (bpfHtons ethPIpv6) ++ ((v.h6 c).bytes ++ l4)) := by
    rw [egressHeaders, EgressVars.fragBytes, hfrag, if_neg Bool.false_ne_true, List.append_nil,
      List.append_assoc, List.append_assoc]
  rw [hframe, cast_residual6_frame hmac]

/-- **Egress keeps the residual** of an unfragmented packet. -/
theorem egressFrame_residual (hk : k.Lawful) (hst : st ≠ .checksumPartial) {data : List UInt8}
    (h : egressFrame k c st data = .ok out) (hlen : LengthConsistent4 data)
    (hfrag : ¬ (Iphdr.load data ethHlen).IsFragment)
    (hsum : Checksummed4 (Iphdr.load data ethHlen).protocol (transportBytes4 data)) :
    (residual6 out : ZMod 65535) = residual4 data := by
  obtain ⟨hlen₀, -, -, -, l4, hl4, rfl⟩ := egressFrame_eq_ok.mp h
  have hmac : 12 ≤ data.length := le_trans (by decide) hlen₀
  have hpay : payload4 data = transportBytes4 data := by
    rw [payload4, egressVars_ihl]
    rfl
  have hisFrag := egressVars_isFrag_eq_false hfrag
  rw [hpay] at hl4
  have hsame : l4.length = (egressVars (Iphdr.load data ethHlen)).l4len := by
    rw [(egressPayload_sameExcept hl4).1, hlen.length_transportBytes4]
  rw [cast_residual6_egress hmac hisFrag, cast_residual4, hlen.length_transportBytes4, hsame,
    cast_leSum_egressPayload hk hst hfrag hsum hl4]

end Egress

/-! ## Ingress -/

section Ingress

variable {st : IpSummed} {v : IngressVars} {ip6 : Ipv6hdr} {l4 : List UInt8}

theorem cast_ingressDiff (hk : k.Lawful) (c : Constants) (v : IngressVars) (totLen : UInt16) :
    ((ingressDiff k c v).toNat : ZMod 65535) =
      leSum (le32Bytes (v.h4 k c totLen).saddr ++ le32Bytes (v.h4 k c totLen).daddr)
        - leSum (v.saddr6.bytes ++ v.daddr6.bytes) := by
  rw [ingressDiff, hk.csumDiff _ _ _ (by simp) (by simp), UInt32.toNat_zero, prefixCopy_eq,
    prefixCopy_eq]
  have hsa : (v.h4 k c v.totLen).saddr = (v.h4 k c totLen).saddr := rfl
  have hda : (v.h4 k c v.totLen).daddr = (v.h4 k c totLen).daddr := rfl
  rw [hsa, hda]
  push_cast
  ring

theorem cast_ingressIcmpDiff (hk : k.Lawful) (hsa : v.saddr6 = ip6.saddr)
    (hda : v.daddr6 = ip6.daddr) (hnh : ip6.nexthdr = ipprotoIcmpv6) :
    ((ingressIcmpDiff k v).toNat : ZMod 65535) = -leSum (pseudo6 ip6 v.payloadLen) := by
  have hp6 : Pseudo6.bytes ⟨v.saddr6, v.daddr6, bpfHtonl (UInt32.ofNat v.payloadLen),
      bpfHtonl ipprotoIcmpv6.toUInt32⟩ = pseudo6 ip6 v.payloadLen := by
    rw [pseudo6_bytes, pseudo6, hsa, hda, hnh]
  rw [ingressIcmpDiff, hk.csumDiff _ _ _ (by simp) (by simp), UInt32.toNat_zero, prefixCopy_eq,
    prefixCopy_eq, hp6, leSum]
  push_cast
  ring

/-- **One update for TCP and UDP**: the IPv6 addresses out, the IPv4 addresses in. -/
theorem cast_leSum_ingressCsum (hk : k.Lawful) (hst : st ≠ .checksumPartial)
    (hsa : v.saddr6 = ip6.saddr) (hda : v.daddr6 = ip6.daddr) (hnh : v.nh = ip6.nexthdr)
    (hkind : HasChecksum v.nh l4) (totLen : UInt16) {n : ℕ} (hn : n < 65536)
    (hlen : csumOffset v.nh + 2 ≤ l4.length) :
    (leSum (pseudo4 (v.h4 k c totLen) n) : ZMod 65535)
        + leSum (updateTransport st v.nh (ingressDiff k c v) l4)
      = leSum (pseudo6 ip6 n) + leSum l4 := by
  have hproto : (v.h4 k c totLen).protocol = ip6.nexthdr := by
    show v.proto4 = _
    rw [IngressVars.proto4, if_neg hkind.ne_icmp.2, hnh]
  rw [cast_leSum_updateTransport hkind hlen, cast_ingressDiff hk c v totLen,
    cast_leSum_pseudo6 _ hn, cast_leSum_pseudo4, IpSummed.sign_of_ne hst, hproto, hsa, hda]
  ring

/-- **The update for an echo**: the pseudo-header out, and another type. -/
theorem cast_leSum_ingressEcho (hk : k.Lawful) (hst : st ≠ .checksumPartial)
    (hsa : v.saddr6 = ip6.saddr) (hda : v.daddr6 = ip6.daddr)
    (hnh : ip6.nexthdr = ipprotoIcmpv6) (hlen : 4 ≤ l4.length) :
    (leSum (updateCsum st pseudoHdr (ingressEchoDiff k v (load8 l4 0) (load8 l4 1)) 2
        (splice l4 0 [echoType4 (load8 l4 0)])) : ZMod 65535)
      = leSum (pseudo6 ip6 v.payloadLen) + leSum l4 := by
  have hone : 0 + [echoType4 (load8 l4 0)].length ≤ l4.length :=
    singleton_fits _ (by omega)
  rw [cast_leSum_updateCsum (by rfl) (by rwa [length_splice hone]) rfl
      fun h => Bool.false_ne_true h.1,
    cast_leSum_splice_head (by omega), ingressEchoDiff, cast_csumDiff_typeWord hk,
    cast_ingressIcmpDiff hk hsa hda hnh, IpSummed.sign_of_ne hst]
  ring

/-- **The payload of an unfragmented packet that is no error**: pseudo-header and payload have the
same sum before and after. -/
theorem cast_leSum_ingressPayload (hk : k.Lawful) (hst : st ≠ .checksumPartial)
    (hsa : v.saddr6 = ip6.saddr) (hda : v.daddr6 = ip6.daddr) (hnh : v.nh = ip6.nexthdr)
    (hfirst : v.first = true) (hlt : v.payloadLen < 65536) (hsum : Checksummed6 ip6.nexthdr l4)
    {x : IngressOut} (h : ingressPayload k c st v l4 = .ok x) (present : Bool) (totLen : UInt16) :
    (if (v.h4 k c totLen).protocol = ipprotoIcmp then 0
        else (leSum (pseudo4 (v.h4 k c totLen) v.payloadLen) : ZMod 65535)) + leSum (x present).2
      = leSum (pseudo6 ip6 v.payloadLen) + leSum l4 := by
  have hproto : (v.h4 k c totLen).protocol =
      if ip6.nexthdr = ipprotoIcmpv6 then ipprotoIcmp else ip6.nexthdr := by
    rw [← hnh]
    rfl
  rw [hproto]
  rcases or_assoc.mpr hsum with hkind | ⟨hicmp, hecho⟩
  · have hkind' : HasChecksum v.nh l4 := by
      rw [hnh]
      exact hkind
    obtain ⟨hin, rfl⟩ := (ingressPayload_checksum hfirst hkind').mp h
    have hne := HasChecksum.ne_icmp hkind
    rw [if_neg hne.2, if_neg hne.1]
    exact cast_leSum_ingressCsum hk hst hsa hda hnh hkind' totLen hlt hin
  · rw [ingressPayload_icmp hfirst (hnh.trans hicmp), ingressIcmpBytes_eq_ok] at h
    obtain ⟨hin, ⟨-, rfl⟩ | ⟨hno, -⟩⟩ := h
    · rw [if_pos hicmp, if_pos rfl, zero_add]
      exact cast_leSum_ingressEcho hk hst hsa hda hicmp (by omega)
    · exact absurd hecho hno

/-- A residual of an IPv4 frame made of its parts. -/
theorem cast_residual4_frame {data : List UInt8} (h : 12 ≤ data.length) (v : IngressVars)
    (totLen : UInt16) (l4 : List UInt8) :
    (residual4 (ingressHeaders k c v data totLen ++ l4) : ZMod 65535) =
      256 * ((if (v.h4 k c totLen).protocol = ipprotoIcmp then 0
        else (leSum (pseudo4 (v.h4 k c totLen) l4.length) : ZMod 65535)) + leSum l4) := by
  have hload := iphdr_load_ingressHeaders k c v totLen l4 h
  have hl4 : transportBytes4 (ingressHeaders k c v data totLen ++ l4) = l4 := by
    rw [transportBytes4, hload]
    exact List.drop_left' (length_ingressHeaders h)
  rw [cast_residual4, hl4, hload]

/-- **Ingress keeps the residual** of an unfragmented packet that is no error. -/
theorem ingress_residual (hk : k.Lawful) (hst : s.skb.ipSummed ≠ .checksumPartial)
    (h : IngressTranslates k c s) (hlen : LengthConsistent6 s.skb.data)
    (hfrag : (Ipv6hdr.load s.skb.data ethHlen).nexthdr ≠ ipprotoFragment)
    (hsum : Checksummed6 (Ipv6hdr.load s.skb.data ethHlen).nexthdr (transportBytes6 s.skb.data)) :
    (residual4 (clatIngress k c s).2.skb.data : ZMod 65535) = residual6 s.skb.data := by
  obtain ⟨hmac, -, v, x, present, hv, hx, hdata⟩ := h.parts hk
  have hl4 : v.l4 s.skb.data = transportBytes6 s.skb.data := hv.l4_of_plain hfrag
  have hnh : v.nh = (Ipv6hdr.load s.skb.data ethHlen).nexthdr := by
    rw [hv.nh, transport6, if_neg hfrag]
  have hfirst : v.first = true := hv.first.mpr (if_neg hfrag)
  have hlt : v.payloadLen < 65536 := by
    rw [hv.payloadLen]
    exact l4Length6_lt _
  have hpaylen : (transportBytes6 s.skb.data).length = v.payloadLen := by
    rw [← hl4, hv.l4, hv.payloadLen, hlen.length_payload6]
  have hno : ¬ IsIcmp6Error s.skb.data := by
    rintro ⟨hicmp, hnecho⟩
    rcases hsum with htcp | ⟨hudp, -⟩ | ⟨-, hecho⟩
    · exact absurd (htcp.symm.trans hicmp) (by decide)
    · exact absurd (hudp.symm.trans hicmp) (by decide)
    · rw [transportBytes6, load8_drop] at hecho
      exact hnecho hecho
  have hxlen : (x present).2.length = v.payloadLen := by
    rcases ingressPayload_cases hx with ⟨-, l4, rfl, hsame⟩ | ⟨herr, -, -⟩
    · exact hsame.1.trans (by rw [hl4, hpaylen])
    · exact absurd (hv.isError_iff.mp herr) hno
  rw [hl4] at hx
  rw [hdata, cast_residual4_frame hmac, hxlen,
    cast_leSum_ingressPayload hk hst hv.saddr6 hv.daddr6 hnh hfirst hlt hsum hx present,
    residual6, Nat.cast_add, cast_sum16, cast_sum16, hpaylen]
  ring

end Ingress

/-! ## The residual is preserved -/

/-- **Checksum residuals are preserved in both directions**: modulo `65535` the residual of the
translated packet is that of the packet, so one verifies exactly when the other does. -/
theorem checksum_residual_preserved (hk : k.Lawful) (hst : s.skb.ipSummed ≠ .checksumPartial) :
    (EgressTranslates k c s → LengthConsistent4 s.skb.data →
      ¬ (Iphdr.load s.skb.data ethHlen).IsFragment →
      Checksummed4 (Iphdr.load s.skb.data ethHlen).protocol (transportBytes4 s.skb.data) →
      residual6 (clatEgress k c s).2.skb.data ≡ residual4 s.skb.data [MOD 65535]) ∧
    (IngressTranslates k c s → LengthConsistent6 s.skb.data →
      (Ipv6hdr.load s.skb.data ethHlen).nexthdr ≠ ipprotoFragment →
      Checksummed6 (Ipv6hdr.load s.skb.data ethHlen).nexthdr (transportBytes6 s.skb.data) →
      residual4 (clatIngress k c s).2.skb.data ≡ residual6 s.skb.data [MOD 65535]) := by
  constructor
  · intro htr hlen hfrag hsum
    rw [← ZMod.natCast_eq_natCast_iff]
    exact egressFrame_residual hk hst (htr.out hk) hlen hfrag hsum
  · intro htr hlen hfrag hsum
    rw [← ZMod.natCast_eq_natCast_iff]
    exact ingress_residual hk hst htr hlen hfrag hsum

/-- A UDP datagram out, an echo reply in. -/
theorem checksum_residual_preserved_udp_echo :
    let s := testState (testFrame4 0x4000 17 [0x30, 0x39, 0, 53, 0, 9, 0x12, 0x34, 7]) ethPIp
    let s' := testState (testFrame6 58 testPeer6 [129, 0, 0x12, 0x34, 0, 1, 0, 2]) ethPIpv6
    (EgressTranslates .reference testConstants s ∧
      residual6 (clatEgress .reference testConstants s).2.skb.data
        ≡ residual4 s.skb.data [MOD 65535]) ∧
    IngressTranslates .reference testConstants s' ∧
      residual4 (clatIngress .reference testConstants s').2.skb.data
        ≡ residual6 s'.skb.data [MOD 65535] := by
  intro s s'
  have htr : EgressTranslates .reference testConstants s := by decide +kernel
  have htr' : IngressTranslates .reference testConstants s' := by decide +kernel
  have h := (checksum_residual_preserved (s := s) (c := testConstants) Kernel.reference_lawful
    (by decide)).1 htr (by decide +kernel) (by decide +kernel) (by decide +kernel)
  have h' := (checksum_residual_preserved (s := s') (c := testConstants) Kernel.reference_lawful
    (by decide)).2 htr' (by decide +kernel) (by decide +kernel) (by decide +kernel)
  exact ⟨⟨htr, h⟩, htr', h'⟩

/-! ## ICMPv6 errors -/

section Error

variable {st : IpSummed} {v : IngressVars} {q : Quote} {d : UInt32} {inner l4 : List UInt8}

/-- **The quoted echo**: what its bytes gain, the outer difference gains. -/
theorem innerIcmpBytes_balance (hk : k.Lawful) {x : List UInt8 × UInt32}
    (h : innerIcmpBytes k q d inner = .ok x) :
    (x.2.toNat : ZMod 65535) - leSum x.1 = d.toNat - leSum inner := by
  rw [innerIcmpBytes] at h
  split at h
  swap
  · cases h
    rfl
  obtain ⟨-, ⟨-, rfl⟩ | ⟨-, hlen, rfl⟩⟩ := innerEchoBytes_eq_ok.mp h
  · rfl
  · have hone : 0 + [innerEchoType (load8 inner 0)].length ≤ inner.length :=
      singleton_fits _ (by omega)
    have hword : load16 (splice inner 0 [innerEchoType (load8 inner 0)]) 2 = load16 inner 2 :=
      load16_splice_of_disjoint hone (Or.inr (by simp))
    rw [innerEcho4, cast_leSum_splice16 (by rfl) (by rwa [length_splice hone]), hword,
      cast_leSum_splice_head (by omega), innerEchoOuter, cast_word16Diff hk,
      cast_csumDiff_typeWord hk]
    ring

/-- **The quoted TCP or UDP checksum**: what the field gains, the outer difference gains. -/
theorem innerCsumBytes_balance (hk : k.Lawful) (c : Constants) (q : Quote) (d : UInt32)
    (inner : List UInt8) (present : Bool) :
    ((innerCsumBytes k c q d inner present).2.toNat : ZMod 65535)
        - leSum (innerCsumBytes k c q d inner present).1
      = d.toNat - leSum inner := by
  rw [innerCsumBytes]
  split
  · next h =>
    have heven : innerCoff q.inNh % 2 = 0 := by
      rw [innerCoff]
      split
      · rfl
      split
      · rfl
      · rfl
    show ((word16Diff k _ _ d).toNat : ZMod 65535) - leSum (splice _ _ (le16Bytes _)) = _
    rw [cast_word16Diff hk, cast_leSum_splice16 heven h.2.1.2]
    ring
  · rfl

/-- The bytes taken out of the sum are the bytes taken out of the packet. -/
theorem quoteBytes_oldBytes (h : quoteBytes c l4 = .ok q) :
    q.oldBytes (l4.take 8) = l4.take (q.shrink + 28) := by
  obtain ⟨hlen, -, -, ⟨-, rfl⟩ | ⟨-, hlen', rfl⟩⟩ := quoteBytes_eq_ok.mp h
  · show l4.take 8 ++ ((Ipv6hdr.load l4 8).bytes ++ []) = l4.take (8 + 40)
    rw [List.append_nil, Ipv6hdr.bytes_load hlen, List.take_add]
    rfl
  · show l4.take 8 ++ ((Ipv6hdr.load l4 8).bytes ++ (FragHdr.load l4 (8 + ip6Hlen)).bytes)
      = l4.take (8 + (40 + 8))
    rw [Ipv6hdr.bytes_load hlen, FragHdr.bytes_load hlen', ← slice_add, List.take_add]
    rfl

theorem length_oldBytes (h : quoteBytes c l4 = .ok q) :
    (q.oldBytes (l4.take 8)).length = q.shrink + 28 := by
  rw [quoteBytes_oldBytes h, List.length_take, min_eq_left (quoteBytes_length h)]

theorem cast_errorDiff (hk : k.Lawful) (h : quoteBytes c l4 = .ok q) :
    ((errorDiff k c v q (l4.take 8)).toNat : ZMod 65535) =
      (ingressIcmpDiff k v).toNat + leSum (q.newBytes k c (l4.take 8))
        - leSum (l4.take (q.shrink + 28)) := by
  have hshrink := q.shrink_eq
  rw [errorDiff, hk.csumDiff _ _ _ (by rw [length_oldBytes h]; omega)
    (by rw [Quote.length_newBytes]), quoteBytes_oldBytes h]

/-- **The whole message**: what replaced the old headers and what changed in the quote cancel
against the difference, and what is left of it is the pseudo-header. -/
theorem cast_leSum_ingressError (hk : k.Lawful) (hst : st ≠ .checksumPartial) {ip6 : Ipv6hdr}
    (hsa : v.saddr6 = ip6.saddr) (hda : v.daddr6 = ip6.daddr) (hnh : ip6.nexthdr = ipprotoIcmpv6)
    {x : IngressOut} (h : ingressErrorBytes k c st v (l4.take 8) l4 = .ok x) (present : Bool) :
    (leSum (x present).2 : ZMod 65535) = leSum (pseudo6 ip6 v.payloadLen) + leSum l4 := by
  obtain ⟨-, q, hq, y, hy, rfl⟩ := ingressErrorBytes_eq_ok.mp h
  have hold := length_oldBytes hq
  rw [quoteBytes_oldBytes hq] at hold
  have hshrink := q.shrink_eq
  have hl4 : (leSum l4 : ZMod 65535)
      = leSum (l4.take (q.shrink + 28)) + leSum (l4.drop (q.shrink + 28)) := by
    have happ := leSum_append (l := l4.take (q.shrink + 28)) (by rw [hold]; omega)
      (l4.drop (q.shrink + 28))
    rw [List.take_append_drop] at happ
    rw [happ, Nat.cast_add]
  have hbalance :=
    (innerCsumBytes_balance hk c q y.2 y.1 present).trans (innerIcmpBytes_balance hk hy)
  rw [cast_errorDiff hk hq, cast_ingressIcmpDiff hk hsa hda hnh] at hbalance
  show (leSum (errorMessage k c st q (l4.take 8)
    (innerCsumBytes k c q y.2 y.1 present)) : ZMod 65535) = _
  generalize innerCsumBytes k c q y.2 y.1 present = z at hbalance ⊢
  have hin : 2 + 2 ≤ (q.newBytes k c (l4.take 8) ++ z.1).length := by
    rw [List.length_append, Quote.length_newBytes]
    omega
  rw [errorMessage, cast_leSum_updateCsum (by rfl) hin rfl fun hz => Bool.false_ne_true hz.1,
    leSum_append (by rw [Quote.length_newBytes]), IpSummed.sign_of_ne hst, hl4]
  push_cast
  linear_combination -hbalance

end Error

/-- **The outer checksum of a translated ICMPv6 error.**  Modulo `65535` the words of the ICMPv4
message have the sum that the ICMPv6 message had together with its pseudo-header, whatever is
quoted. -/
theorem icmp_error_checksum_preserved (hk : k.Lawful) (hst : s.skb.ipSummed ≠ .checksumPartial)
    (h : IngressTranslates k c s) (hlen : LengthConsistent6 s.skb.data)
    (herr : IsIcmp6Error s.skb.data) :
    sum16 ((clatIngress k c s).2.skb.data.drop (ethHlen + ip4Hlen)) ≡
      sum16 (pseudo6 (Ipv6hdr.load s.skb.data ethHlen) (transportBytes6 s.skb.data).length)
        + sum16 (transportBytes6 s.skb.data) [MOD 65535] := by
  obtain ⟨hmac, v, x, present, hv, -, hbytes, hdata⟩ := h.error hk herr
  have hl4 : v.l4 s.skb.data = transportBytes6 s.skb.data := hv.l4_of_plain herr.plain
  have hpaylen : (transportBytes6 s.skb.data).length = v.payloadLen := by
    rw [← hl4, hv.l4, hv.payloadLen, hlen.length_payload6]
  rw [hdata, List.drop_left' (length_ingressHeaders hmac), ← ZMod.natCast_eq_natCast_iff,
    Nat.cast_add, cast_sum16, cast_sum16, cast_sum16, hpaylen,
    cast_leSum_ingressError hk hst hv.saddr6 hv.daddr6 herr.1 hbytes present, transportBytes6]
  ring

theorem icmp_error_checksum_preserved_router :
    let s := testState testRouterError ethPIpv6
    IngressTranslates .reference testConstants s ∧ IsIcmp6Error s.skb.data ∧
      sum16 ((clatIngress .reference testConstants s).2.skb.data.drop (ethHlen + ip4Hlen)) ≡
        sum16 (pseudo6 (Ipv6hdr.load s.skb.data ethHlen) (transportBytes6 s.skb.data).length)
          + sum16 (transportBytes6 s.skb.data) [MOD 65535] := by
  intro s
  have htr : IngressTranslates .reference testConstants s := by decide +kernel
  have herr : IsIcmp6Error s.skb.data := by decide +kernel
  exact ⟨htr, herr, icmp_error_checksum_preserved Kernel.reference_lawful (by decide) htr
    (by decide +kernel) herr⟩

/-! ## The sum of the whole packet -/

/-- **The bookkeeping of `CHECKSUM_COMPLETE`.**  Where `skb->csum` is the sum of the packet from the
network header on, it is that of the translated packet afterwards, on every path of ingress. -/
theorem checksum_complete_kept (hk : k.Lawful) (h : IngressTranslates k c s)
    (hst : s.skb.ipSummed = .checksumComplete)
    (hcsum : s.skb.csum.toNat ≡ s.skb.netSum [MOD 65535]) :
    (clatIngress k c s).2.skb.ipSummed = .checksumComplete ∧
      (clatIngress k c s).2.skb.csum.toNat ≡ (clatIngress k c s).2.skb.netSum [MOD 65535] := by
  rw [← ZMod.natCast_eq_natCast_iff] at hcsum ⊢
  obtain ⟨-, -, out, present, -, htr, -, hkept⟩ := h.run hk
  exact ⟨htr.ipSummed.trans hst, hkept hst hcsum⟩

/-- A frame whose `skb->csum` is right, in a linear buffer. -/
def completeState (data : List UInt8) (proto : UInt16) : State where
  skb := .linear data (bpfHtons proto) .checksumComplete (UInt32.ofNat (leSum (data.drop ethHlen)))
  counters := fun _ => 0
  calls := 0

/-- An error of a router about a fragment of a UDP datagram: the path with the most stores. -/
def testFragmentError : List UInt8 :=
  testFrame6 58 [0x20, 0x01, 0x0d, 0xb8, 0, 1, 0, 0, 0, 0, 0, 0, 0, 0, 0, 1]
    ([2, 0, 0, 0, 0, 0, 5, 0] ++ ([0x60, 0, 0, 0, 0, 28, 44, 63] ++ (testConstants.podIp6.bytes ++
      (testPeer6 ++ ([17, 0, 0, 1, 0, 0, 0x12, 0x34] ++ List.replicate 20 7)))))

theorem checksum_complete_kept_fragmentError :
    let s := completeState testFragmentError ethPIpv6
    IngressTranslates .reference testConstants s ∧
      s.skb.csum.toNat ≡ s.skb.netSum [MOD 65535] ∧
      (clatIngress .reference testConstants s).2.skb.csum.toNat
        ≡ (clatIngress .reference testConstants s).2.skb.netSum [MOD 65535] := by
  intro s
  have htr : IngressTranslates .reference testConstants s := by decide +kernel
  have hcsum : s.skb.csum.toNat ≡ s.skb.netSum [MOD 65535] := by decide +kernel
  exact ⟨htr, hcsum, (checksum_complete_kept Kernel.reference_lawful htr rfl hcsum).2⟩

end CiliumClat
