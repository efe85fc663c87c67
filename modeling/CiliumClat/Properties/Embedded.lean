import CiliumClat.Properties.ZeroChecksum

/-!
# The packet embedded in an error

An ICMPv6 error quotes the beginning of a packet of the pod, and `clat_ingress` embeds an IPv4
packet in its place.  A quote is short, so nothing bounds the length it claims, and its transport
checksum can only be updated, never verified.  Three places depend on this.

* **The total length** is the quoted payload length plus 20, or plus 12 behind a Fragment header,
  in sixteen bits.  It wraps around above, and below 20 it is no total length at all
  (`embedded_length_iff`).
* **The update** `csum_fold(diff + ~oc)` adds in 32 bits without the end-around carry.  Where
  `bpf_csum_diff` returns its result unfolded, the carry can get lost, and the new checksum is then
  off by one (`open_coded_update_iff`).
* **The guard** `oc != 0` is there for the null checksum of UDP, but TCP goes through it too, and an
  echo behind a Fragment header is not updated at all (`quoted_checksum_iff`).
-/

namespace CiliumClat

open ByteList OnesComplement

variable {k : Kernel} {c : Constants} {s : State}

/-! ## The total length -/

/-- The length of the quoted Fragment header. -/
def quotedFragHlen (data : List UInt8) : ℕ :=
  if (Ipv6hdr.load (quotedFrame data) ethHlen).nexthdr = ipprotoFragment then fragHlen else 0

theorem QuotedAs.fragHlen {data : List UInt8} {q : Quote} (h : QuotedAs data q) :
    (if q.inFrag then fragHlen else 0) = quotedFragHlen data := by
  rw [quotedFragHlen]
  by_cases hfrag : q.inFrag = true
  · rw [if_pos hfrag, if_pos (h.inFrag.mp hfrag)]
  · rw [if_neg hfrag, if_neg fun hnh => hfrag (h.inFrag.mpr hnh)]

/-- The total length is computed in sixteen bits. -/
theorem length_in4 (k : Kernel) (c : Constants) (q : Quote) :
    (q.in4 k c).length =
      (q.in6.length + ip4Hlen - if q.inFrag then fragHlen else 0) % 65536 := by
  show (bswap16 (bswap16 (UInt16.ofNat _))).toNat = _
  rw [bswap16_bswap16]
  exact UInt16.toNat_ofNat'

/-- **When the embedded header is a possible one.**  Its total length is what the quote says, and
one that an IPv4 header can have, exactly if the quoted length covers the Fragment header and the
total length fits into sixteen bits.  No other quote is dropped. -/
theorem embedded_length_iff (hk : k.Lawful) (h : IngressTranslates k c s)
    (herr : IsIcmp6Error s.skb.data) :
    let total := (embeddedHeader (clatIngress k c s).2.skb.data).length
    let payload := (Ipv6hdr.load (quotedFrame s.skb.data) ethHlen).length
    ((total : ℤ) = 20 + payload - quotedFragHlen s.skb.data ∧ 20 ≤ total ∧ total ≤ 65535) ↔
      quotedFragHlen s.skb.data ≤ payload ∧
        payload + 20 ≤ 65535 + quotedFragHlen s.skb.data := by
  obtain ⟨q, -, -, -, hread, -, -, -, hheader, -⟩ := h.embedded hk herr
  intro total payload
  have htotal : total = (payload + 20 - quotedFragHlen s.skb.data) % 65536 := by
    show (embeddedHeader _).length = _
    rw [hheader, length_in4, hread.fragHlen, hread.in6]
  have hfrag : quotedFragHlen s.skb.data = 8 ∨ quotedFragHlen s.skb.data = 0 := by
    rw [quotedFragHlen]
    split
    · exact Or.inl rfl
    · exact Or.inr rfl
  have hlt : payload < 65536 := UInt16.toNat_lt _
  omega

/-- An ICMPv6 error from a router outside the prefix, about a packet of the pod to `daddr` whose
payload has the length `len`, as the quoted header says, and of which `l` is quoted. -/
def testQuoteError (len : ℕ) (nexthdr : UInt8) (daddr l : List UInt8) : List UInt8 :=
  testFrame6 58 [0x20, 0x01, 0x0d, 0xb8, 0, 1, 0, 0, 0, 0, 0, 0, 0, 0, 0, 1]
    ([1, 0, 0, 0, 0, 0, 0, 0] ++ ([0x60, 0, 0, 0] ++ (be16Bytes len ++ ([nexthdr, 63] ++
      (testConstants.podIp6.bytes ++ (daddr ++ l))))))

/-- The header of a quoted UDP datagram of 1000 bytes. -/
theorem embedded_length_iff_datagram :
    let s := testState (testQuoteError 1000 17 testPeer6 [0, 53, 0, 53, 3, 232, 1, 2]) ethPIpv6
    IngressTranslates .reference testConstants s ∧ IsIcmp6Error s.skb.data ∧
      (embeddedHeader (clatIngress .reference testConstants s).2.skb.data).length = 1020 := by
  intro s
  have hs : IngressTranslates .reference testConstants s := by decide +kernel
  have herr : IsIcmp6Error s.skb.data := by decide +kernel
  have hpayload : (Ipv6hdr.load (quotedFrame s.skb.data) ethHlen).length = 1000 := by
    decide +kernel
  have hfrag : quotedFragHlen s.skb.data = 0 := by decide +kernel
  have h := embedded_length_iff Kernel.reference_lawful hs herr
  rw [hpayload, hfrag] at h
  have htotal := (h.mpr (by decide)).1
  exact ⟨hs, herr, by omega⟩

/-- A quoted payload length of 65535 gives a total length of 19, and one of 0 in front of a Fragment
header a total length of 12. -/
theorem embedded_length_wraps :
    let s := testState (testQuoteError 65535 17 testPeer6 [0, 53, 0, 53, 0, 8, 1, 2]) ethPIpv6
    let s' := testState
      (testQuoteError 0 44 testPeer6 [17, 0, 0, 0, 0, 0, 0, 0, 0, 53, 0, 53, 0, 8, 1, 2]) ethPIpv6
    (IngressTranslates .reference testConstants s ∧ IsIcmp6Error s.skb.data ∧
      (embeddedHeader (clatIngress .reference testConstants s).2.skb.data).length = 19) ∧
    IngressTranslates .reference testConstants s' ∧ IsIcmp6Error s'.skb.data ∧
      (embeddedHeader (clatIngress .reference testConstants s').2.skb.data).length = 12 := by
  intro s s'
  refine ⟨⟨by decide +kernel, by decide +kernel, ?_⟩, by decide +kernel, by decide +kernel, ?_⟩
  · decide +kernel
  · decide +kernel

/-! ## The update of a quoted checksum -/

/-- The addition of `diff` and the complement of the checksum `oc` carries out of 32 bits. -/
def LosesCarry (diff : UInt32) (oc : UInt16) : Prop :=
  2 ^ 32 ≤ diff.toNat + (65535 - oc.toNat)

instance (diff : UInt32) (oc : UInt16) : Decidable (LosesCarry diff oc) :=
  inferInstanceAs (Decidable (_ ≤ _))

section Update

variable (diff : UInt32) (oc : UInt16)

theorem losesCarry_iff :
    LosesCarry diff oc ↔ ¬ diff.toNat + (~~~oc).toUInt32.toNat < 2 ^ 32 := by
  rw [LosesCarry, UInt16.toNat_toUInt32, UInt16.toNat_not, not_lt]
  rfl

/-- **The value of the update**: right, but for the lost carry. -/
theorem cast_innerNc :
    ((innerNc diff oc).toNat : ZMod 65535) =
      oc.toNat - diff.toNat + if LosesCarry diff oc then 1 else 0 := by
  have hsum := cast_add32 diff (~~~oc).toUInt32
  rw [UInt16.toNat_toUInt32, cast_not16] at hsum
  rw [innerNc, cast_csumFold]
  by_cases hcarry : LosesCarry diff oc
  · have hnot := (losesCarry_iff diff oc).mp hcarry
    rw [UInt16.toNat_toUInt32] at hnot
    rw [if_neg hnot] at hsum
    rw [if_pos hcarry]
    linear_combination -hsum
  · have hlt := not_not.mp (mt (losesCarry_iff diff oc).mpr hcarry)
    rw [UInt16.toNat_toUInt32] at hlt
    rw [if_pos hlt] at hsum
    rw [if_neg hcarry]
    linear_combination -hsum

end Update

/-- `ip6`, the pseudo-header that a quoted echo loses. -/
theorem innerEcho_pseudo (ip6 : Ipv6hdr) :
    Pseudo6.bytes ⟨prefixCopy ip6.saddr, prefixCopy ip6.daddr,
        bpfHtonl (bpfNtohs ip6.payloadLen).toUInt32, bpfHtonl ipprotoIcmpv6.toUInt32⟩ =
      pseudo6 { ip6 with nexthdr := ipprotoIcmpv6 } ip6.length := by
  have hlen : (bpfNtohs ip6.payloadLen).toUInt32 = UInt32.ofNat ip6.length := by
    rw [Ipv6hdr.length, ← UInt32.toNat_inj, UInt16.toNat_toUInt32, UInt32.toNat_ofNat',
      Nat.mod_eq_of_lt]
    exact lt_trans (UInt16.toNat_lt _) (by decide)
  rw [hlen, pseudo6_bytes]
  rfl

/-- The IPv6 pseudo-header of the quoted packet, in front of `n` bytes. -/
def quotedPseudo (data : List UInt8) (n : ℕ) : List UInt8 :=
  pseudo6 { Ipv6hdr.load (quotedFrame data) ethHlen with
    nexthdr := transport6 (quotedFrame data) } n

/-- The IPv4 pseudo-header of the embedded packet, in front of `n` bytes; ICMP has none. -/
def embeddedPseudo (out : List UInt8) (n : ℕ) : List UInt8 :=
  if (embeddedHeader out).protocol = ipprotoIcmp then [] else pseudo4 (embeddedHeader out) n

/-- The checksum at `off` of the embedded packet is the right update of the quoted one, where `n` is
the length of the transport packet and the ICMP type goes from `t` to `t'`.  With whatever was not
quoted behind it, the embedded packet then verifies if the quoted one did. -/
structure Updated (data out : List UInt8) (off n t t' : ℕ) : Prop where
  check : (load16 (embeddedBytes out) off).toNat + leSum (embeddedPseudo out n) + t' ≡
    (load16 (payload6 (quotedFrame data)) off).toNat + leSum (quotedPseudo data n) + t [MOD 65535]
  verifies : ∀ rest : List UInt8,
    sum16 (quotedPseudo data n ++ (payload6 (quotedFrame data) ++ rest)) % 65535 = 0 →
      sum16 (embeddedPseudo out n ++ (embeddedBytes out ++ rest)) % 65535 = 0

/-- Where checksum and type are all that has changed, the congruence is all there is to show. -/
theorem updated_iff {data out : List UInt8} {off n t t' : ℕ}
    (hedit : ∀ rest, (leSum (embeddedBytes out ++ rest) : ZMod 65535) =
      leSum (payload6 (quotedFrame data) ++ rest) + ((load16 (embeddedBytes out) off).toNat
        - (load16 (payload6 (quotedFrame data)) off).toNat) + (t' - t)) :
    Updated data out off n t t' ↔
      ((load16 (embeddedBytes out) off).toNat : ZMod 65535) + leSum (embeddedPseudo out n) + t' =
        (load16 (payload6 (quotedFrame data)) off).toNat + leSum (quotedPseudo data n) + t := by
  have hcheck (a b p q : ℕ) : a + p + t' ≡ b + q + t [MOD 65535] ↔
      (a : ZMod 65535) + p + t' = b + q + t := by
    rw [← ZMod.natCast_eq_natCast_iff]
    push_cast
    rfl
  have hq : (quotedPseudo data n).length % 2 = 0 := by
    simp [quotedPseudo, pseudo6, be32Bytes]
  have he : (embeddedPseudo out n).length % 2 = 0 := by
    rw [embeddedPseudo]
    split
    · rfl
    · simp [pseudo4, be16Bytes]
  refine ⟨fun h => (hcheck _ _ _ _).mp h.check, fun h => ⟨(hcheck _ _ _ _).mpr h, fun rest => ?_⟩⟩
  rw [sum16_mod_eq_zero_iff, sum16_mod_eq_zero_iff, leSum_append hq, leSum_append he, Nat.cast_add,
    Nat.cast_add, hedit]
  intro hzero
  linear_combination hzero + h

/-- Where the quote stays as it is, the pseudo-headers have to agree. -/
theorem updated_iff_of_same {data out : List UInt8} {off n t : ℕ}
    (hsame : embeddedBytes out = payload6 (quotedFrame data)) :
    Updated data out off n t t ↔
      (leSum (quotedPseudo data n) : ZMod 65535) = leSum (embeddedPseudo out n) := by
  rw [updated_iff fun rest => by rw [hsame]; ring, hsame]
  constructor
  · intro heq
    linear_combination -heq
  · intro heq
    linear_combination -heq

/-- The frame quotes a TCP segment, or the first fragment of one, down to its checksum. -/
structure QuotesTcp (data : List UInt8) : Prop where
  error : IsIcmp6Error data
  tcp : transport6 (quotedFrame data) = ipprotoTcp
  first : offset6 (quotedFrame data) = 0
  complete : 18 ≤ (payload6 (quotedFrame data)).length

/-- The frame quotes an ICMPv6 echo that is not fragmented: it has no Fragment header, or one that
says so. -/
structure QuotesEcho (data : List UInt8) : Prop where
  error : IsIcmp6Error data
  icmp : transport6 (quotedFrame data) = ipprotoIcmpv6
  whole : (Ipv6hdr.load (quotedFrame data) ethHlen).nexthdr = ipprotoFragment →
    (FragHdr.load (quotedFrame data) (ethHlen + ip6Hlen)).offset = 0 ∧
      (FragHdr.load (quotedFrame data) (ethHlen + ip6Hlen)).more = false
  echo : IsEcho6 (load8 (payload6 (quotedFrame data)) 0)

/-- `bpf_csum_diff` folds what it returns to 16 bits. -/
def Kernel.FoldsDiffs (k : Kernel) : Prop :=
  ∀ old new seed, (k.csumDiff old new seed).toNat < 65536

theorem Kernel.FoldsDiffs.not_losesCarry (h : k.FoldsDiffs) (old new : List UInt8) (seed : UInt32)
    (oc : UInt16) : ¬ LosesCarry (k.csumDiff old new seed) oc := by
  have hlt := h old new seed
  rw [LosesCarry]
  omega

section Quoted

variable {data out : List UInt8} {q : Quote} {d : UInt32} {off n : ℕ}

/-- The pseudo-headers of TCP and UDP differ in the addresses only. -/
theorem cast_leSum_pseudo_sub (hread : QuotedAs data q) (hheader : embeddedHeader out = q.in4 k c)
    (hicmp : q.inNh ≠ ipprotoIcmp) (hicmp6 : q.inNh ≠ ipprotoIcmpv6) (hn : n < 65536) :
    (leSum (quotedPseudo data n) : ZMod 65535) - leSum (embeddedPseudo out n) =
      leSum (quotedAddrs data) - leSum (embeddedAddrs c data) := by
  have hproto : (q.in4 k c).protocol = transport6 (quotedFrame data) :=
    (if_neg hicmp6).trans hread.nh
  have hsaddr : (q.in4 k c).saddr = c.podIp4 := rfl
  have hdaddr : (q.in4 k c).daddr = (Ipv6hdr.load (quotedFrame data) ethHlen).daddr.w3 :=
    congrArg (fun h => h.daddr.w3) hread.in6
  have hne : transport6 (quotedFrame data) ≠ ipprotoIcmp := hread.nh ▸ hicmp
  rw [quotedPseudo, embeddedPseudo, hheader, hproto, if_neg hne, cast_leSum_pseudo6 _ hn,
    cast_leSum_pseudo4, hproto, hsaddr, hdaddr, quotedAddrs, embeddedAddrs]
  ring

/-- **The checksum of quoted TCP and UDP.**  It is updated unless it is zero, and the update is
right; a zero is right only where the change of addresses does not count. -/
theorem updated_transport_iff (hk : k.Lawful) (hfold : k.FoldsDiffs) (hread : QuotedAs data q)
    (hheader : embeddedHeader out = q.in4 k c) (hcoff : innerCoff q.inNh = off)
    (hoff : off = 6 ∨ off = 16) (hicmp : q.inNh ≠ ipprotoIcmp) (hicmp6 : q.inNh ≠ ipprotoIcmpv6)
    (hfirst : offset6 (quotedFrame data) = 0)
    (hcomplete : off + 2 ≤ (payload6 (quotedFrame data)).length)
    (hbytes : embeddedBytes out = (innerCsumBytes k c q d (payload6 (quotedFrame data)) true).1)
    (hn : n < 65536) :
    Updated data out off n 0 0 ↔ load16 (payload6 (quotedFrame data)) off ≠ 0 ∨
      leSum (quotedAddrs data) ≡ leSum (embeddedAddrs c data) [MOD 65535] := by
  have hpseudo := cast_leSum_pseudo_sub hread hheader hicmp hicmp6 hn
  have hold : (quotedAddrs data).length % 4 = 0 := by simp [quotedAddrs]
  have hnew : (embeddedAddrs c data).length % 4 = 0 := by simp [embeddedAddrs]
  have hne : off ≠ 0 := by omega
  rw [innerCsumBytes, hcoff, hread.innerAddrDiff_eq] at hbytes
  by_cases hzero : load16 (payload6 (quotedFrame data)) off = 0
  · rw [if_neg fun h => h.2.2 hzero] at hbytes
    rw [updated_iff_of_same hbytes, or_iff_right (not_not.mpr hzero),
      ← ZMod.natCast_eq_natCast_iff, ← sub_eq_zero, hpseudo, sub_eq_zero]
  · rw [if_pos ⟨⟨hne, hread.first.mpr hfirst⟩, ⟨rfl, hcomplete⟩, hzero⟩] at hbytes
    have heven : off % 2 = 0 := by omega
    have hcheck : load16 (embeddedBytes out) off =
        innerNc (k.csumDiff (quotedAddrs data) (embeddedAddrs c data) 0)
          (load16 (payload6 (quotedFrame data)) off) := by
      rw [hbytes]
      exact load16_splice_self hcomplete _
    refine iff_of_true ((updated_iff fun rest => ?_).mpr ?_) (Or.inl hzero)
    · rw [hcheck, hbytes, cast_leSum_splice16_append heven hcomplete]
      ring
    · rw [hcheck, cast_innerNc, if_neg (hfold.not_losesCarry _ _ _ _), hk.csumDiff _ _ _ hold hnew,
        UInt32.toNat_zero, Nat.cast_zero]
      linear_combination -hpseudo

/-- An embedded ICMP packet has no pseudo-header. -/
theorem embeddedPseudo_of_icmp6 (hheader : embeddedHeader out = q.in4 k c)
    (hicmp6 : q.inNh = ipprotoIcmpv6) (n : ℕ) : embeddedPseudo out n = [] := by
  rw [embeddedPseudo, hheader]
  exact if_pos (if_pos hicmp6)

/-- **The checksum of a quoted echo** without a Fragment header: the pseudo-header goes, and the
type changes. -/
theorem updated_echo (hk : k.Lawful) (hfold : k.FoldsDiffs) (hread : QuotedAs data q)
    (hheader : embeddedHeader out = q.in4 k c) (hicmp6 : q.inNh = ipprotoIcmpv6)
    (hlen : 4 ≤ (payload6 (quotedFrame data)).length)
    (hbytes : embeddedBytes out = innerEcho4 k q (payload6 (quotedFrame data))) :
    Updated data out 2 q.in6.length (load8 (payload6 (quotedFrame data)) 0).toNat
      (load8 (embeddedBytes out) 0).toNat := by
  have hpseudo : Pseudo6.bytes ⟨prefixCopy q.in6.saddr, prefixCopy q.in6.daddr,
      bpfHtonl (bpfNtohs q.in6.payloadLen).toUInt32, bpfHtonl ipprotoIcmpv6.toUInt32⟩ =
        quotedPseudo data q.in6.length := by
    rw [innerEcho_pseudo, quotedPseudo, ← hread.in6, ← hread.nh, hicmp6]
  have hquoted : (quotedPseudo data q.in6.length).length % 4 = 0 := by
    simp [quotedPseudo, pseudo6, be32Bytes]
  have hnone := embeddedPseudo_of_icmp6 hheader hicmp6 q.in6.length
  obtain ⟨inner, hinner⟩ : ∃ inner, payload6 (quotedFrame data) = inner := ⟨_, rfl⟩
  rw [hinner] at hlen hbytes
  have hone : 0 + [innerEchoType (load8 inner 0)].length ≤ inner.length :=
    singleton_fits _ (by omega)
  have hlen' : 2 + 2 ≤ (splice inner 0 [innerEchoType (load8 inner 0)]).length := by
    rwa [length_splice hone]
  have hword : load16 (splice inner 0 [innerEchoType (load8 inner 0)]) 2 = load16 inner 2 :=
    load16_splice_of_disjoint hone (Or.inr (by simp))
  have htype : load8 (embeddedBytes out) 0 = innerEchoType (load8 inner 0) := by
    rw [hbytes, innerEcho4, load8_splice_of_disjoint (by simpa using hlen') (Or.inl (by decide)),
      load8_splice_head]
  have hcheck : load16 (embeddedBytes out) 2 =
      innerNc (innerEchoDiff k q (load8 inner 0) (load8 inner 1)) (load16 inner 2) := by
    rw [hbytes]
    exact load16_splice_self hlen' _
  refine (updated_iff fun rest => ?_).mpr ?_
  · have hone' : 1 ≤ (inner ++ rest).length := by
      rw [List.length_append]
      omega
    rw [hinner, hcheck, htype, hbytes, innerEcho4, cast_leSum_splice16_append (by rfl) hlen',
      hword, ← splice_append_left hone, cast_leSum_splice_head hone', load8_append_left (by omega)]
    ring
  · rw [hinner, hcheck, htype, hnone, cast_innerNc, innerEchoDiff,
      if_neg (hfold.not_losesCarry _ _ _ _), cast_csumDiff_typeWord hk, hpseudo,
      hk.csumDiff _ _ _ hquoted (by rfl), leSum, UInt32.toNat_zero, Nat.cast_zero]
    ring

/-- The same for a run: TCP and UDP differ in the offset of the checksum only. -/
theorem IngressTranslates.updated_transport_iff (h : IngressTranslates k c s) (hk : k.Lawful)
    (hfold : k.FoldsDiffs) (hfault : NoFault k s ethPIpv6) (herr : IsIcmp6Error s.skb.data)
    (hproto : transport6 (quotedFrame s.skb.data) = ipprotoTcp ∧ off = 16 ∨
      transport6 (quotedFrame s.skb.data) = ipprotoUdp ∧ off = 6)
    (hfirst : offset6 (quotedFrame s.skb.data) = 0)
    (hcomplete : off + 2 ≤ (payload6 (quotedFrame s.skb.data)).length) (hn : n < 65536) :
    Updated s.skb.data (clatIngress k c s).2.skb.data off n 0 0 ↔
      load16 (payload6 (quotedFrame s.skb.data)) off ≠ 0 ∨
        leSum (quotedAddrs s.skb.data) ≡ leSum (embeddedAddrs c s.skb.data) [MOD 65535] := by
  have hne : transport6 (quotedFrame s.skb.data) ≠ ipprotoIcmpv6 := by
    rcases hproto with ⟨htcp, -⟩ | ⟨hudp, -⟩
    · exact htcp.trans_ne (by decide)
    · exact hudp.trans_ne (by decide)
  obtain ⟨q, d, present, hread, hpresent, hheader, hbytes⟩ := h.embedded_of_ne hk herr hne
  rw [hpresent hfault] at hbytes
  rw [← hread.nh] at hproto hne
  rcases hproto with ⟨hnh, rfl⟩ | ⟨hnh, rfl⟩
  · exact CiliumClat.updated_transport_iff hk hfold hread hheader (by rw [hnh]; rfl) (Or.inr rfl)
      (hnh.trans_ne (by decide)) hne hfirst hcomplete hbytes hn
  · exact CiliumClat.updated_transport_iff hk hfold hread hheader (by rw [hnh]; rfl) (Or.inl rfl)
      (hnh.trans_ne (by decide)) hne hfirst hcomplete hbytes hn

/-- Behind a Fragment header a quoted echo stays as it is, and with it the sum of the
pseudo-header. -/
theorem IngressTranslates.updated_fragmented_echo_iff (h : IngressTranslates k c s)
    (hk : k.Lawful) (hq : QuotesEcho s.skb.data)
    (hfrag : (Ipv6hdr.load (quotedFrame s.skb.data) ethHlen).nexthdr = ipprotoFragment) :
    Updated s.skb.data (clatIngress k c s).2.skb.data 2 n
        (load8 (payload6 (quotedFrame s.skb.data)) 0).toNat
        (load8 (embeddedBytes (clatIngress k c s).2.skb.data) 0).toNat ↔
      leSum (quotedPseudo s.skb.data n) ≡ 0 [MOD 65535] := by
  obtain ⟨q, d, x, present, hread, -, -, hx, hheader, hbytes⟩ := h.embedded hk hq.error
  have hicmp6 : q.inNh = ipprotoIcmpv6 := hread.nh.trans hq.icmp
  rw [innerCsumBytes_of_icmp hicmp6] at hbytes
  rw [innerIcmpBytes, if_neg fun hicmp => hicmp.2 (hread.inFrag.mpr hfrag)] at hx
  cases Except.ok.inj hx
  rw [hbytes, updated_iff_of_same hbytes, embeddedPseudo_of_icmp6 hheader hicmp6,
    ← ZMod.natCast_eq_natCast_iff]
  rfl

/-- Without a Fragment header the checksum of a quoted echo is the right update. -/
theorem IngressTranslates.updated_whole_echo (h : IngressTranslates k c s) (hk : k.Lawful)
    (hfold : k.FoldsDiffs) (hq : QuotesEcho s.skb.data)
    (hfrag : (Ipv6hdr.load (quotedFrame s.skb.data) ethHlen).nexthdr ≠ ipprotoFragment) :
    Updated s.skb.data (clatIngress k c s).2.skb.data 2 (l4Length6 (quotedFrame s.skb.data))
      (load8 (payload6 (quotedFrame s.skb.data)) 0).toNat
      (load8 (embeddedBytes (clatIngress k c s).2.skb.data) 0).toNat := by
  obtain ⟨q, d, x, present, hread, -, -, hx, hheader, hbytes⟩ := h.embedded hk hq.error
  have hicmp6 : q.inNh = ipprotoIcmpv6 := hread.nh.trans hq.icmp
  rw [innerCsumBytes_of_icmp hicmp6] at hbytes
  rw [innerIcmpBytes, if_pos ⟨hicmp6, fun hin => hfrag (hread.inFrag.mp hin)⟩,
    innerEchoBytes_eq_ok] at hx
  obtain ⟨-, ⟨hno, -⟩ | ⟨-, hlen, rfl⟩⟩ := hx
  · exact absurd hq.echo hno
  have hlength : l4Length6 (quotedFrame s.skb.data) = q.in6.length := by
    rw [l4Length6, if_neg hfrag, hread.in6]
    rfl
  rw [hlength]
  exact updated_echo hk hfold hread hheader hicmp6 hlen hbytes

end Quoted

/-- **The checksum of the quoted packet.**  With differences that are folded, the checksum of a
quoted UDP datagram is always the right update.  That of a TCP segment is exactly if it is not zero
or the change of addresses does not count, and that of an echo exactly if there is no Fragment
header or the pseudo-header does not count. -/
theorem quoted_checksum_iff (hk : k.Lawful) (hfold : k.FoldsDiffs) (h : IngressTranslates k c s)
    (hfault : NoFault k s ethPIpv6) :
    let data := s.skb.data
    let out := (clatIngress k c s).2.skb.data
    (QuotesTcp data → ∀ n < 65536, (Updated data out 16 n 0 0 ↔
      load16 (payload6 (quotedFrame data)) 16 ≠ 0 ∨
        leSum (quotedAddrs data) ≡ leSum (embeddedAddrs c data) [MOD 65535])) ∧
    (QuotesUdp data → ∀ n < 65536, Updated data out 6 n 0 0) ∧
    (QuotesEcho data →
      (Updated data out 2 (l4Length6 (quotedFrame data))
          (load8 (payload6 (quotedFrame data)) 0).toNat (load8 (embeddedBytes out) 0).toNat ↔
        (Ipv6hdr.load (quotedFrame data) ethHlen).nexthdr ≠ ipprotoFragment ∨
          leSum (quotedPseudo data (l4Length6 (quotedFrame data))) ≡ 0 [MOD 65535])) := by
  intro data out
  refine ⟨fun hq n hn => ?_, fun hq n hn => ?_, fun hq => ?_⟩
  · exact h.updated_transport_iff hk hfold hfault hq.error (Or.inl ⟨hq.tcp, rfl⟩) hq.first
      hq.complete hn
  · have hiff := h.updated_transport_iff hk hfold hfault hq.error (Or.inr ⟨hq.udp, rfl⟩) hq.first
      hq.complete hn
    exact hiff.mpr (Or.inl hq.nonNull)
  · by_cases hfrag : (Ipv6hdr.load (quotedFrame data) ethHlen).nexthdr = ipprotoFragment
    · rw [or_iff_right (not_not.mpr hfrag)]
      exact h.updated_fragmented_echo_iff hk hq hfrag
    · exact iff_of_true (h.updated_whole_echo hk hfold hq hfrag) (Or.inl hfrag)

theorem Kernel.reference_foldsDiffs : Kernel.reference.FoldsDiffs := by
  intro old new seed
  show (fold16 (csumDiffRaw old new seed)).toUInt32.toNat < 65536
  rw [UInt16.toNat_toUInt32]
  exact UInt16.toNat_lt _

/-- An error about a TCP segment of the pod, with the checksum `check`. -/
def testTcpError (check : UInt16) : List UInt8 :=
  testQuoteError 20 6 testPeer6
    ([0x80, 0, 0, 80, 0, 0, 0x0c, 0x9a, 0, 0, 0, 0, 0x50, 2, 0xff, 0xff] ++
      (le16Bytes check ++ [0, 0]))

/-- A segment whose checksum is not zero. -/
theorem quoted_checksum_iff_segment :
    let s := testState (testTcpError 0x1234) ethPIpv6
    IngressTranslates .reference testConstants s ∧ QuotesTcp s.skb.data ∧
      Updated s.skb.data (clatIngress .reference testConstants s).2.skb.data 16 20 0 0 := by
  intro s
  have hs : IngressTranslates .reference testConstants s := by decide +kernel
  have hq : QuotesTcp s.skb.data :=
    ⟨by decide +kernel, by decide +kernel, by decide +kernel, by decide +kernel⟩
  have h := quoted_checksum_iff Kernel.reference_lawful Kernel.reference_foldsDiffs hs
    ⟨Kernel.reference_reliable, rfl⟩
  exact ⟨hs, hq, (h.1 hq 20 (by decide)).mpr (Or.inl (by decide +kernel))⟩

/-- A TCP segment whose checksum is right and happens to be zero, and an echo request whose checksum
is right, behind a Fragment header that says that it is no fragment: both are embedded with the
checksum they had over IPv6. -/
theorem quoted_checksum_not_updated :
    let s := testState (testTcpError 0) ethPIpv6
    let s' := testState (testQuoteError 16 44 testPeer6
      [58, 0, 0, 0, 0, 0, 0, 1, 128, 0, 0x5c, 0x6d, 0, 86, 0, 1]) ethPIpv6
    let out := (clatIngress .reference testConstants s).2.skb.data
    let out' := (clatIngress .reference testConstants s').2.skb.data
    (IngressTranslates .reference testConstants s ∧ QuotesTcp s.skb.data ∧
      sum16 (quotedPseudo s.skb.data 20 ++ payload6 (quotedFrame s.skb.data)) % 65535 = 0 ∧
      sum16 (embeddedPseudo out 20 ++ embeddedBytes out) % 65535 ≠ 0) ∧
    IngressTranslates .reference testConstants s' ∧ QuotesEcho s'.skb.data ∧
      sum16 (quotedPseudo s'.skb.data 8 ++ payload6 (quotedFrame s'.skb.data)) % 65535 = 0 ∧
      sum16 (embeddedPseudo out' 8 ++ embeddedBytes out') % 65535 ≠ 0 := by
  intro s s' out out'
  refine ⟨⟨by decide +kernel,
    ⟨by decide +kernel, by decide +kernel, by decide +kernel, by decide +kernel⟩, ?_, ?_⟩,
    by decide +kernel,
    ⟨by decide +kernel, by decide +kernel, by decide +kernel, Or.inr (by decide +kernel)⟩, ?_, ?_⟩
  · decide +kernel
  · decide +kernel
  · decide +kernel
  · decide +kernel

end CiliumClat
