import CiliumClat.Properties.Protocols

/-!
# UDP datagrams keep their checksum

A null checksum in a UDP header says that there is no checksum, which IPv6 forbids, so a checksum
whose ones'-complement value is zero is sent as `0xffff`.  Four places compute one.

* The two checksum updates of `clat_egress` and the one of `clat_ingress` leave this to
  `bpf_l4_csum_replace`, with `BPF_F_MARK_MANGLED_0`; where egress starts from a null checksum it
  also gives `BPF_F_MARK_ENFORCE`.
* `udp_full_csum` tests its result.
* The update of the checksum of a quoted datagram is written out and tests nothing.

So the first two kinds never write a null checksum, and the third does where the checksum comes out
as zero (`ChecksumVanishes`).  And egress updates only what it takes for UDP: behind the number of
an IPv6 extension header, which it carries over, the payload may spell out a UDP header of its own
(`SmugglesNullUdp`).
-/

namespace CiliumClat

open ByteList OnesComplement EarlyExit

variable {k : Kernel} {c : Constants} {s : State}

/-! ## Egress -/

theorem udpFullCsumFold_ne_zero (sum : UInt32) : udpFullCsumFold sum ≠ 0 := by
  rw [udpFullCsumFold]
  split
  · decide
  · next h => exact h

theorem fullCsum_ne_zero {l4 : List UInt8} {ulen : ℕ} {seed : UInt32} {w : UInt16}
    (h : fullCsum k l4 ulen seed = some w) : w ≠ 0 := by
  have htail : ∀ off sum, fullCsumTail k l4 ulen off sum = some w → w ≠ 0 := by
    intro off sum h
    rw [fullCsumTail] at h
    split at h
    · split at h
      · cases h
        exact udpFullCsumFold_ne_zero _
      · cases h
    · cases h
      exact udpFullCsumFold_ne_zero _
  rw [fullCsum] at h
  split at h
  · cases h
  split at h
  · cases h
  · exact htail _ _ h

/-- **Egress gives every UDP datagram a checksum**, in each of its three branches. -/
theorem egressUdpBytes_ne_zero {st : IpSummed} {v : EgressVars} {l4 out : List UInt8}
    (h : egressUdpBytes k c st v l4 = .ok out) : load16 out 6 ≠ 0 := by
  simp only [egressUdpBytes, bind_eq_ok, loadAt_eq_ok] at h
  obtain ⟨_, ⟨hlen, rfl⟩, h⟩ := h
  have hread : load16 (slice l4 6 2) 0 = load16 l4 6 := load16_slice (by decide)
  rw [hread] at h
  split at h
  · next hnz =>
    obtain ⟨-, rfl⟩ := csumAt_eq_ok.mp h
    rw [updateCsum, load16_splice_self hlen]
    exact l4CsumField_ne_zero rfl (Or.inr hnz) _
  split at h
  · obtain ⟨-, rfl⟩ := csumAt_eq_ok.mp h
    rw [updateCsum, load16_splice_self hlen]
    exact l4CsumField_ne_zero rfl (Or.inl rfl) _
  split at h
  · cases h
  split at h
  · cases h
  · next hfull =>
    obtain ⟨-, rfl⟩ := storeAt_eq_ok.mp h
    rw [load16_splice_self hlen]
    exact fullCsum_ne_zero hfull

/-! ## What an IPv6 packet carries -/

/-- The bytes behind the extension headers `hs`, of which the first is at the front of `l`. -/
def behindHeaders : List UInt8 → List UInt8 → List UInt8
  | [], l => l
  | nh :: hs, l => behindHeaders hs (l.drop (extHdrLen nh l))

/-- None of the extension headers `hs` is the Fragment header of a later fragment. -/
def NotLater : List UInt8 → List UInt8 → Prop
  | [], _ => True
  | nh :: hs, l => (nh = ipprotoFragment → (FragHdr.load l 0).offset = 0) ∧
      NotLater hs (l.drop (extHdrLen nh l))

instance decidableNotLater : (hs l : List UInt8) → Decidable (NotLater hs l)
  | [], _ => .isTrue trivial
  | nh :: hs, l =>
    have : Decidable (NotLater hs (l.drop (extHdrLen nh l))) := decidableNotLater hs _
    inferInstanceAs (Decidable ((nh = ipprotoFragment → _) ∧ _))

/-- From the next header `nh` on, the chain of headers in `l` leads to a UDP datagram, or to the
first fragment of one, whose checksum is null.  A field that is missing reads as null. -/
structure NullUdp (nh : UInt8) (l : List UInt8) : Prop where
  udp : (chainOf nh l).2 = ipprotoUdp
  first : NotLater (chainOf nh l).1 l
  null : load16 (behindHeaders (chainOf nh l).1 l) 6 = 0

/-- The packet in an IPv6 frame is a UDP datagram or the first fragment of one, behind whatever
extension headers, and its checksum is null. -/
def NullUdp6 (data : List UInt8) : Prop :=
  NullUdp (Ipv6hdr.load data ethHlen).nexthdr (data.drop (ethHlen + ip6Hlen))

/-- The packet in an IPv4 frame is a UDP datagram or the first fragment of one, and its checksum is
null. -/
def NullUdp4 (data : List UInt8) : Prop :=
  (Iphdr.load data ethHlen).protocol = ipprotoUdp ∧ (Iphdr.load data ethHlen).offset = 0 ∧
    load16 (transportBytes4 data) 6 = 0

/-- An IPv4 packet, or a first fragment, whose protocol is the number of an IPv6 extension header,
and whose payload leads from there to a UDP header with a null checksum. -/
structure SmugglesNullUdp (data : List UInt8) : Prop where
  ext : isExtHdr (Iphdr.load data ethHlen).protocol = true
  first : (Iphdr.load data ethHlen).offset = 0
  nullUdp : NullUdp (Iphdr.load data ethHlen).protocol (transportBytes4 data)

theorem nullUdp_of_not_ext {nh : UInt8} (hext : isExtHdr nh = false) (l : List UInt8) :
    NullUdp nh l ↔ nh = ipprotoUdp ∧ load16 l 6 = 0 := by
  have hchain : chainOf nh l = ([], nh) := headerChain_of_not_ext hext _ l
  constructor
  · rintro ⟨hudp, -, hnull⟩
    rw [hchain] at hudp hnull
    exact ⟨hudp, hnull⟩
  · rintro ⟨hudp, hnull⟩
    refine ⟨?_, ?_, ?_⟩ <;> rw [hchain]
    · exact hudp
    · trivial
    · exact hnull

/-- Behind a Fragment header in front. -/
theorem nullUdp_fragment (fh : FragHdr) (l : List UInt8) :
    NullUdp ipprotoFragment (fh.bytes ++ l) ↔ fh.offset = 0 ∧ NullUdp fh.nexthdr l := by
  have hchain := chainOf_fragment fh l
  have hload : FragHdr.load (fh.bytes ++ l) 0 = fh :=
    FragHdr.load_append_bytes List.length_nil fh l
  have hdrop : (fh.bytes ++ l).drop (extHdrLen ipprotoFragment (fh.bytes ++ l)) = l :=
    List.drop_left' (FragHdr.length_bytes fh)
  constructor
  · rintro ⟨hudp, hfirst, hnull⟩
    rw [hchain] at hudp hfirst hnull
    rw [NotLater, hload, hdrop] at hfirst
    rw [behindHeaders, hdrop] at hnull
    exact ⟨hfirst.1 rfl, hudp, hfirst.2, hnull⟩
  · rintro ⟨hoffset, hudp, hfirst, hnull⟩
    refine ⟨?_, ?_, ?_⟩ <;> rw [hchain]
    · exact hudp
    · rw [NotLater, hload, hdrop]
      exact ⟨fun _ => hoffset, hfirst⟩
    · rw [behindHeaders, hdrop]
      exact hnull

/-- The packet that egress makes, behind its own Fragment header if it has one. -/
theorem EgressTranslates.nullUdp6_iff (hk : k.Lawful) (h : EgressTranslates k c s) :
    ∃ l4, egressPayload k c s.skb.ipSummed (egressVars (Iphdr.load s.skb.data ethHlen))
        (transportBytes4 s.skb.data) = .ok l4 ∧
      (NullUdp6 (clatEgress k c s).2.skb.data ↔ (Iphdr.load s.skb.data ethHlen).offset = 0 ∧
        NullUdp (nextHeaderOf (Iphdr.load s.skb.data ethHlen).protocol) l4) := by
  obtain ⟨-, hload, l4, hl4, hdrop⟩ := h.parts hk
  refine ⟨l4, hl4, ?_⟩
  rw [NullUdp6, hload, hdrop]
  by_cases hfrag : (Iphdr.load s.skb.data ethHlen).IsFragment
  · have hisFrag := egressVars_isFrag.mpr hfrag
    have hnh : ((egressVars (Iphdr.load s.skb.data ethHlen)).h6 c).nexthdr = ipprotoFragment :=
      if_pos hisFrag
    rw [hnh, EgressVars.fragBytes, if_pos hisFrag, nullUdp_fragment, fh_offset]
    rfl
  · have hoffset : (Iphdr.load s.skb.data ethHlen).offset = 0 :=
      not_not.mp fun hoff => hfrag (Or.inr hoff)
    rw [h6_nexthdr_of_not_isFragment hfrag, EgressVars.fragBytes,
      if_neg (egressVars_isFrag.not.mpr hfrag), List.nil_append, and_iff_right hoffset]

/-- **Egress emits no UDP datagram without a checksum**, unless the sender spells one out behind
the number of an extension header. -/
theorem EgressTranslates.not_nullUdp6_iff (hk : k.Lawful) (h : EgressTranslates k c s) :
    ¬ NullUdp6 (clatEgress k c s).2.skb.data ↔ ¬ SmugglesNullUdp s.skb.data := by
  obtain ⟨l4, hl4, hnull⟩ := h.nullUdp6_iff hk
  rw [hnull]
  by_cases hext : isExtHdr (Iphdr.load s.skb.data ethHlen).protocol = true
  · -- what is behind such a number goes out as it came
    have hnext : nextHeaderOf (Iphdr.load s.skb.data ethHlen).protocol =
        (Iphdr.load s.skb.data ethHlen).protocol := by
      refine if_neg fun hicmp => ?_
      rw [hicmp] at hext
      exact absurd hext (by decide)
    obtain rfl := egressPayload_of_ext hext hl4
    rw [hnext]
    exact not_congr ⟨fun hand => ⟨hext, hand.1, hand.2⟩, fun hs => ⟨hs.first, hs.nullUdp⟩⟩
  · refine iff_of_true ?_ fun hs => hext hs.ext
    rintro ⟨hoffset, hudp⟩
    rw [Bool.not_eq_true, ← isExtHdr_nextHeaderOf] at hext
    obtain ⟨hnh, hzero⟩ := (nullUdp_of_not_ext hext l4).mp hudp
    rw [nextHeaderOf] at hnh
    split at hnh
    · exact absurd hnh (by decide)
    have hproto : (egressVars (Iphdr.load s.skb.data ethHlen)).proto = ipprotoUdp := hnh
    rw [egressPayload, if_pos (egressVars_first.mpr hoffset), egressL4Bytes, hproto,
      if_neg (by decide), if_pos rfl] at hl4
    exact egressUdpBytes_ne_zero hl4 hzero

/-! ## Ingress -/

/-- **Ingress delivers no UDP datagram without a checksum**: it drops those that come without one,
and the update does not lose one. -/
theorem IngressTranslates.not_nullUdp4 (hk : k.Lawful) (h : IngressTranslates k c s) :
    ¬ NullUdp4 (clatIngress k c s).2.skb.data := by
  obtain ⟨hlen, -, v, x, present, hv, hx, hdata⟩ := h.parts hk
  have hload := iphdr_load_ingressHeaders k c v (x present).1 (x present).2 hlen
  rw [hdata, NullUdp4, transportBytes4, hload]
  rintro ⟨hproto, hoff, hnull⟩
  have hnh : v.nh = ipprotoUdp := by
    have hproto' : v.proto4 = ipprotoUdp := hproto
    rw [IngressVars.proto4] at hproto'
    split at hproto'
    · exact absurd hproto' (by decide)
    · exact hproto'
  have hfirst : v.first = true := hv.first.mpr ((hv.offset_h4 k c _).symm.trans hoff)
  rw [ingressPayload, if_pos hfirst, ingressL4Bytes, hnh, if_neg (by decide), if_pos rfl] at hx
  obtain ⟨l4, hl4, hx⟩ := bind_eq_ok.mp hx
  cases hx
  obtain ⟨hlen', hnz, rfl⟩ := ingressUdpBytes_eq_ok.mp hl4
  have hdrop : ∀ l : List UInt8, (ingressHeaders k c v s.skb.data v.totLen ++ l).drop
      (ethHlen + (v.h4 k c v.totLen).headerLength) = l :=
    fun l => List.drop_left' (length_ingressHeaders hlen)
  rw [sameLength, hdrop, updateCsum, load16_splice_self hlen'] at hnull
  exact l4CsumField_ne_zero rfl (Or.inr hnz) _ hnull

/-! ## Quoted datagrams -/

/-- The frame is an ICMPv6 error that quotes a UDP datagram, or the first fragment of one, down to a
checksum that is not null. -/
structure QuotesUdp (data : List UInt8) : Prop where
  error : IsIcmp6Error data
  udp : transport6 (quotedFrame data) = ipprotoUdp
  first : offset6 (quotedFrame data) = 0
  complete : 8 ≤ (payload6 (quotedFrame data)).length
  nonNull : load16 (payload6 (quotedFrame data)) 6 ≠ 0

/-- The addresses of the quoted packet. -/
def quotedAddrs (data : List UInt8) : List UInt8 :=
  (Ipv6hdr.load (quotedFrame data) ethHlen).saddr.bytes ++
    (Ipv6hdr.load (quotedFrame data) ethHlen).daddr.bytes

/-- The addresses of the IPv4 packet that is embedded in its place. -/
def embeddedAddrs (c : Constants) (data : List UInt8) : List UInt8 :=
  le32Bytes c.podIp4 ++ le32Bytes (Ipv6hdr.load (quotedFrame data) ethHlen).daddr.w3

/-- The checksum field of the UDP datagram embedded in an ICMPv4 error. -/
def embeddedUdpCheck (out : List UInt8) : UInt16 :=
  load16 out (ethHlen + ip4Hlen + 8 + ip4Hlen + 6)

/-- A checksum `oc` over the words `old` comes out as zero over the words `new`: the 32-bit word to
be folded is a multiple of `65535`, and not zero. -/
def ChecksumVanishes (k : Kernel) (old new : List UInt8) (oc : UInt16) : Prop :=
  0 < ((k.csumDiff old new 0).toNat + (65535 - oc.toNat)) % 2 ^ 32 ∧
    ((k.csumDiff old new 0).toNat + (65535 - oc.toNat)) % 2 ^ 32 % 65535 = 0

instance (k : Kernel) (old new : List UInt8) (oc : UInt16) :
    Decidable (ChecksumVanishes k old new oc) :=
  inferInstanceAs (Decidable (_ ∧ _))

theorem innerNc_eq_zero_iff {old new : List UInt8} {oc : UInt16} :
    innerNc (k.csumDiff old new 0) oc = 0 ↔ ChecksumVanishes k old new oc := by
  have hword : (k.csumDiff old new 0 + (~~~oc).toUInt32).toNat =
      ((k.csumDiff old new 0).toNat + (65535 - oc.toNat)) % 2 ^ 32 := by
    rw [UInt32.toNat_add, UInt16.toNat_toUInt32, UInt16.toNat_not]
    rfl
  rw [innerNc, csumFold_eq_zero_iff, hword]
  rfl

/-- **When that happens**, in the words of the packet: the checksum makes up for the difference
between the two pairs of addresses.  A kernel that folds the difference it returns satisfies the
two assumptions, unless that difference is zero. -/
theorem checksumVanishes_iff_modEq (hk : k.Lawful) {old new : List UInt8} {oc : UInt16}
    (hold : old.length % 4 = 0) (hnew : new.length % 4 = 0)
    (hpos : 0 < (k.csumDiff old new 0).toNat)
    (hsmall : (k.csumDiff old new 0).toNat + 65535 < 2 ^ 32) :
    ChecksumVanishes k old new oc ↔ oc.toNat + leSum old ≡ leSum new [MOD 65535] := by
  have hoc := oc.toNat_lt
  have hdiff := hk.csumDiff old new 0 hold hnew
  rw [ChecksumVanishes, Nat.mod_eq_of_lt (by omega), and_iff_right (by omega),
    ← ZMod.natCast_eq_natCast_iff, ← Nat.dvd_iff_mod_eq_zero, ← ZMod.natCast_eq_zero_iff,
    Nat.cast_add, hdiff, Nat.cast_sub (by omega), Nat.cast_add, ZMod.natCast_self,
    UInt32.toNat_zero, Nat.cast_zero]
  constructor
  · intro h
    linear_combination -h
  · intro h
    linear_combination -h

theorem QuotedAs.innerAddrDiff_eq {data : List UInt8} {q : Quote} (h : QuotedAs data q) :
    innerAddrDiff k c q = k.csumDiff (quotedAddrs data) (embeddedAddrs c data) 0 := by
  rw [innerAddrDiff, quotedAddrs, embeddedAddrs, ← h.in6]
  rfl

/-- **The checksum of an embedded datagram**: the updated one where it could be read, else the
quoted one. -/
theorem IngressTranslates.embeddedUdpCheck_eq (hk : k.Lawful) (h : IngressTranslates k c s)
    (hq : QuotesUdp s.skb.data) :
    ∃ present : Bool, (NoFault k s ethPIpv6 → present = true) ∧
      embeddedUdpCheck (clatIngress k c s).2.skb.data =
        if present then
          innerNc (k.csumDiff (quotedAddrs s.skb.data) (embeddedAddrs c s.skb.data) 0)
            (load16 (payload6 (quotedFrame s.skb.data)) 6)
        else load16 (payload6 (quotedFrame s.skb.data)) 6 := by
  have hne : transport6 (quotedFrame s.skb.data) ≠ ipprotoIcmpv6 := by
    rw [hq.udp]
    decide
  obtain ⟨q, d, present, hread, hpresent, -, hbytes⟩ := h.embedded_of_ne hk hq.error hne
  have hcoff : innerCoff q.inNh = 6 := by
    rw [hread.nh, hq.udp]
    rfl
  have hfield : embeddedUdpCheck (clatIngress k c s).2.skb.data =
      load16 (embeddedBytes (clatIngress k c s).2.skb.data) 6 := (load16_drop _ _ _).symm
  refine ⟨present, hpresent, ?_⟩
  rw [hfield, hbytes, innerCsumBytes, hcoff, hread.innerAddrDiff_eq]
  by_cases hp : present = true
  · rw [if_pos ⟨⟨by decide, hread.first.mpr hq.first⟩, ⟨hp, hq.complete⟩, hq.nonNull⟩, if_pos hp]
    exact load16_splice_self hq.complete _
  · rw [if_neg (fun hc => hp hc.2.1.1), if_neg hp]

/-- **A UDP datagram keeps its checksum**: egress never emits a null checksum unless the sender
spells it out behind the number of an extension header, ingress never delivers one, and the checksum
of a quoted datagram stays unless it comes out as zero, that is, unless it makes up for the change
of addresses. -/
theorem udp_checksum_kept_iff (hk : k.Lawful) :
    (EgressTranslates k c s →
      (¬ NullUdp6 (clatEgress k c s).2.skb.data ↔ ¬ SmugglesNullUdp s.skb.data)) ∧
    (IngressTranslates k c s → ¬ NullUdp4 (clatIngress k c s).2.skb.data) ∧
    (IngressTranslates k c s → QuotesUdp s.skb.data →
      (¬ ChecksumVanishes k (quotedAddrs s.skb.data) (embeddedAddrs c s.skb.data)
          (load16 (payload6 (quotedFrame s.skb.data)) 6) →
        embeddedUdpCheck (clatIngress k c s).2.skb.data ≠ 0) ∧
      (NoFault k s ethPIpv6 → embeddedUdpCheck (clatIngress k c s).2.skb.data ≠ 0 →
        ¬ ChecksumVanishes k (quotedAddrs s.skb.data) (embeddedAddrs c s.skb.data)
          (load16 (payload6 (quotedFrame s.skb.data)) 6))) ∧
    (0 < (k.csumDiff (quotedAddrs s.skb.data) (embeddedAddrs c s.skb.data) 0).toNat →
      (k.csumDiff (quotedAddrs s.skb.data) (embeddedAddrs c s.skb.data) 0).toNat + 65535 < 2 ^ 32 →
      ∀ oc : UInt16,
        (ChecksumVanishes k (quotedAddrs s.skb.data) (embeddedAddrs c s.skb.data) oc ↔
          oc.toNat + leSum (quotedAddrs s.skb.data) ≡ leSum (embeddedAddrs c s.skb.data)
            [MOD 65535])) := by
  have hold : (quotedAddrs s.skb.data).length % 4 = 0 := by simp [quotedAddrs]
  have hnew : (embeddedAddrs c s.skb.data).length % 4 = 0 := by simp [embeddedAddrs]
  refine ⟨fun h => h.not_nullUdp6_iff hk, fun h => h.not_nullUdp4 hk, fun h hq => ?_,
    fun hpos hsmall oc => checksumVanishes_iff_modEq hk hold hnew hpos hsmall⟩
  obtain ⟨present, hpresent, hcheck⟩ := h.embeddedUdpCheck_eq hk hq
  rw [hcheck]
  refine ⟨fun hnot => ?_, fun hn hne hvanish => hne ?_⟩
  · split
    · exact fun hzero => hnot (innerNc_eq_zero_iff.mp hzero)
    · exact hq.nonNull
  · rw [if_pos (hpresent hn)]
    exact innerNc_eq_zero_iff.mpr hvanish

/-- An ICMPv6 error from a router outside the prefix, about a UDP datagram of the pod with the given
checksum. -/
def testUdpError (check : UInt16) : List UInt8 :=
  testFrame6 58 [0x20, 0x01, 0x0d, 0xb8, 0, 1, 0, 0, 0, 0, 0, 0, 0, 0, 0, 1]
    ([1, 0, 0, 0, 0, 0, 0, 0] ++ ([0x60, 0, 0, 0, 0, 8, 17, 63] ++
      (testConstants.podIp6.bytes ++ (testPeer6 ++ ([0, 53, 0, 53, 0, 8] ++ le16Bytes check)))))

/-- A UDP datagram of the pod without a checksum, a UDP datagram to the pod whose checksum is not
right, and an error about a datagram of the pod. -/
theorem udp_checksum_kept_iff_datagrams :
    let p := testState (testFrame4 0 17 ([0, 53, 0, 53, 0, 8] ++ [0, 0])) ethPIp
    let r := testState (testFrame6 17 testPeer6 ([0, 53, 0, 53, 0, 8] ++ [1, 2])) ethPIpv6
    let e := testState (testUdpError 0x1234) ethPIpv6
    (EgressTranslates .reference testConstants p ∧ IngressTranslates .reference testConstants r ∧
      IngressTranslates .reference testConstants e) ∧
    ¬ NullUdp6 (clatEgress .reference testConstants p).2.skb.data ∧
      ¬ NullUdp4 (clatIngress .reference testConstants r).2.skb.data ∧
      embeddedUdpCheck (clatIngress .reference testConstants e).2.skb.data ≠ 0 := by
  intro p r e
  have hp : EgressTranslates .reference testConstants p := by decide +kernel
  have hr : IngressTranslates .reference testConstants r := by decide +kernel
  have he : IngressTranslates .reference testConstants e := by decide +kernel
  have hsmuggles : ¬ SmugglesNullUdp p.skb.data := fun h => absurd h.ext (by decide +kernel)
  have hquotes : QuotesUdp e.skb.data :=
    ⟨by decide +kernel, by decide +kernel, by decide +kernel, by decide +kernel,
      by decide +kernel⟩
  have hvanish : ¬ ChecksumVanishes .reference (quotedAddrs e.skb.data)
      (embeddedAddrs testConstants e.skb.data) (load16 (payload6 (quotedFrame e.skb.data)) 6) := by
    decide +kernel
  have hk := Kernel.reference_lawful
  exact ⟨⟨hp, hr, he⟩, ((udp_checksum_kept_iff (s := p) hk).1 hp).mpr hsmuggles,
    (udp_checksum_kept_iff (s := r) hk).2.1 hr,
    ((udp_checksum_kept_iff (s := e) hk).2.2.1 he hquotes).1 hvanish⟩

/-- An error about a UDP datagram of the pod whose checksum is `0xc747` embeds a datagram without a
checksum; and an IPv4 packet with the protocol 60 leaves as a Destination Options header and a UDP
datagram without a checksum. -/
theorem udp_checksum_lost :
    let e := testState (testUdpError (bpfHtons 0xc747)) ethPIpv6
    let p := testState (testFrame4 0 60 ([17, 0, 1, 4, 0, 0, 0, 0] ++ [0, 53, 0, 53, 0, 8, 0, 0]))
      ethPIp
    (IngressTranslates .reference testConstants e ∧ QuotesUdp e.skb.data ∧
      load16 (payload6 (quotedFrame e.skb.data)) 6 = bpfHtons 0xc747 ∧
      embeddedUdpCheck (clatIngress .reference testConstants e).2.skb.data = 0) ∧
    EgressTranslates .reference testConstants p ∧
      NullUdp6 (clatEgress .reference testConstants p).2.skb.data := by
  intro e p
  refine ⟨⟨by decide +kernel,
    ⟨by decide +kernel, by decide +kernel, by decide +kernel, by decide +kernel,
      by decide +kernel⟩, by decide +kernel, by decide +kernel⟩, by decide +kernel, ?_⟩
  exact ⟨by decide +kernel, by decide +kernel, by decide +kernel⟩

end CiliumClat
