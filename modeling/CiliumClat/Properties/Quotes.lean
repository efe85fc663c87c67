import CiliumClat.Properties.RoundTrip

/-!
# Quoted packets

An ICMPv6 error quotes the beginning of the packet it is about.  When that packet is one of the
pod's, the quote begins with the headers that `clat_egress` wrote, and `clat_ingress` has to turn
it back into the beginning of the IPv4 packet that the pod sent, or the pod will not know which
of its flows the error is about.  The quote may end anywhere behind the headers.

* `quoteBytes_egress`: what ingress reads of such a quote is what egress wrote (`egressQuote`).
* `sameFields_quote`: the embedded IPv4 header has the fields of the header that was sent.
* `quoted_transport`: the embedded transport bytes are those that were sent, the checksum apart.
-/

namespace CiliumClat

open ByteList OnesComplement

variable {k : Kernel} {c : Constants} {s : State} {p : Iphdr}

/-! ## What is quoted -/

/-- The packet quoted by the ICMPv6 error in a frame, behind as many bytes as a MAC header has. -/
def quotedFrame (data : List UInt8) : List UInt8 :=
  data.drop (ip6Hlen + 8)

/-- What `clat_ingress` has read of the packet quoted in the frame `data`. -/
structure QuotedAs (data : List UInt8) (q : Quote) : Prop where
  in6 : q.in6 = Ipv6hdr.load (quotedFrame data) ethHlen
  nh : q.inNh = transport6 (quotedFrame data)
  inFrag : q.inFrag = true ↔ (Ipv6hdr.load (quotedFrame data) ethHlen).nexthdr = ipprotoFragment
  first : q.inFrag4 &&& ipOffset = 0 ↔ offset6 (quotedFrame data) = 0
  l4 : (data.drop (ethHlen + ip6Hlen)).drop (q.shrink + 28) = payload6 (quotedFrame data)

theorem quotedAs_of_quoteBytes {data : List UInt8} {q : Quote}
    (h : quoteBytes c (data.drop (ethHlen + ip6Hlen)) = .ok q) : QuotedAs data q := by
  have hin6 : Ipv6hdr.load (data.drop (ethHlen + ip6Hlen)) 8
      = Ipv6hdr.load (quotedFrame data) ethHlen := by
    rw [quotedFrame, Ipv6hdr.load_drop, Ipv6hdr.load_drop]
    rfl
  have hfh : FragHdr.load (data.drop (ethHlen + ip6Hlen)) (8 + ip6Hlen)
      = FragHdr.load (quotedFrame data) (ethHlen + ip6Hlen) := by
    rw [quotedFrame, FragHdr.load_drop, FragHdr.load_drop]
    rfl
  obtain ⟨-, -, -, ⟨hnh, rfl⟩ | ⟨hnh, -, rfl⟩⟩ := quoteBytes_eq_ok.mp h
  · rw [hin6] at hnh ⊢
    have hzero : ipDf &&& ipOffset = 0 := by decide
    refine ⟨rfl, (if_neg hnh).symm, iff_of_false Bool.false_ne_true hnh,
      iff_of_true hzero (if_neg hnh), ?_⟩
    rw [payload6, if_neg hnh, quotedFrame, List.drop_drop, List.drop_drop]
    rfl
  · rw [hin6] at hnh ⊢
    rw [hfh]
    refine ⟨rfl, (if_pos hnh).symm, iff_of_true rfl hnh, ?_, ?_⟩
    · rw [offset6, if_pos hnh, ← UInt16.toNat_inj, toNat_and_ipOffset]
      exact Eq.congr_left (frag4Of_offset _)
    · rw [payload6, if_pos hnh, quotedFrame, List.drop_drop, List.drop_drop]
      rfl

/-- The IPv4 header embedded in an ICMPv4 error. -/
def embeddedHeader (out : List UInt8) : Iphdr :=
  Iphdr.load out (ethHlen + ip4Hlen + 8)

/-- The transport bytes embedded behind it. -/
def embeddedBytes (out : List UInt8) : List UInt8 :=
  out.drop (ethHlen + ip4Hlen + 8 + ip4Hlen)

/-- **What becomes of the quoted packet**: a header made of the quote, and the quoted transport
bytes with the type and the checksum of an echo, or the checksum of TCP and UDP, updated. -/
theorem IngressTranslates.embedded (hk : k.Lawful) (h : IngressTranslates k c s)
    (herr : IsIcmp6Error s.skb.data) :
    ∃ (q : Quote) (d : UInt32) (x : List UInt8 × UInt32) (present : Bool),
      QuotedAs s.skb.data q ∧ FromPod c q.in6 ∧ (NoFault k s ethPIpv6 → present = true) ∧
      innerIcmpBytes k q d (payload6 (quotedFrame s.skb.data)) = .ok x ∧
      embeddedHeader (clatIngress k c s).2.skb.data = q.in4 k c ∧
      embeddedBytes (clatIngress k c s).2.skb.data = (innerCsumBytes k c q x.2 x.1 present).1 := by
  obtain ⟨hlen, v, out, present, -, hpresent, hout, hdata⟩ := h.error hk herr
  obtain ⟨-, q, hquote, x, hx, rfl⟩ := ingressErrorBytes_eq_ok.mp hout
  have hread := quotedAs_of_quoteBytes hquote
  rw [hread.l4] at hx
  obtain ⟨icmp, -, hmsg⟩ := errorMessage_eq k c s.skb.ipSummed q
    (slice s.skb.data (ethHlen + ip6Hlen) 8) (innerCsumBytes k c q x.2 x.1 present)
  refine ⟨q, _, x, present, hread, (quoteBytes_in6 hquote).2, hpresent, hx, ?_, ?_⟩
  · rw [hdata, errorOut, hmsg]
    exact iphdr_load_embedded k c v _ hlen icmp _ _
  · rw [hdata, errorOut, hmsg, embeddedBytes, ← List.append_assoc icmp.bytes, ← List.append_assoc]
    refine List.drop_left' ?_
    rw [List.length_append, List.length_append, length_ingressHeaders hlen, Icmphdr.length_bytes,
      Iphdr.length_bytes]
    rfl

/-- The same where no ICMPv6 message is quoted. -/
theorem IngressTranslates.embedded_of_ne (hk : k.Lawful) (h : IngressTranslates k c s)
    (herr : IsIcmp6Error s.skb.data) (hne : transport6 (quotedFrame s.skb.data) ≠ ipprotoIcmpv6) :
    ∃ (q : Quote) (d : UInt32) (present : Bool),
      QuotedAs s.skb.data q ∧ (NoFault k s ethPIpv6 → present = true) ∧
      embeddedHeader (clatIngress k c s).2.skb.data = q.in4 k c ∧
      embeddedBytes (clatIngress k c s).2.skb.data =
        (innerCsumBytes k c q d (payload6 (quotedFrame s.skb.data)) present).1 := by
  obtain ⟨q, d, x, present, hread, -, hpresent, hx, hheader, hbytes⟩ := h.embedded hk herr
  rw [innerIcmpBytes, if_neg fun hicmp => hne (hread.nh.symm.trans hicmp.1)] at hx
  cases Except.ok.inj hx
  exact ⟨q, d, present, hread, hpresent, hheader, hbytes⟩

/-! ## The headers are read back -/

/-- What ingress reads of a quote that begins with the headers of egress. -/
def egressQuote (c : Constants) (v : EgressVars) : Quote :=
  if v.isFrag then fragQuote (v.h6 c) v.fh else plainQuote (v.h6 c)

section Read

variable (c) (v : EgressVars)

theorem egressQuote_in6 : (egressQuote c v).in6 = v.h6 c := by
  rw [egressQuote]
  split
  · rfl
  · rfl

theorem egressQuote_inFrag : (egressQuote c v).inFrag = v.isFrag := by
  rw [egressQuote]
  split
  · next h => exact h.symm
  · next h => exact (Bool.eq_false_iff.mpr h).symm

theorem egressQuote_inNh : (egressQuote c v).inNh = v.nh6 := by
  rw [egressQuote]
  split
  · rfl
  · next h => exact if_neg h

theorem egressQuote_inId : (egressQuote c v).inId = returnId v := by
  rw [egressQuote, returnId]
  split
  · rfl
  · rfl

theorem egressQuote_inFrag4 : (egressQuote c v).inFrag4 = returnFrag4 v := by
  rw [egressQuote, returnFrag4]
  split
  · rfl
  · rfl

end Read

/-- **The quoted headers are read as they were written.** -/
theorem quoteBytes_egress (c : Constants) (hproto : PlainProtocol p.protocol) {hdr : List UInt8}
    (hhdr : hdr.length = 8) (l : List UInt8) :
    quoteBytes c (hdr ++ (((egressVars p).h6 c).bytes ++ ((egressVars p).fragBytes ++ l)))
      = .ok (egressQuote c (egressVars p)) := by
  have hin6 : Ipv6hdr.load
      (hdr ++ (((egressVars p).h6 c).bytes ++ ((egressVars p).fragBytes ++ l))) 8
        = (egressVars p).h6 c :=
    Ipv6hdr.load_append_bytes hhdr _ _
  have hlen := length_append_headers hhdr ((egressVars p).h6 c) (egressVars p) l
  have hext := hproto.not_isExtHdr.1
  rw [quoteBytes_eq_ok, hin6, hlen, egressQuote_inNh]
  refine ⟨le_trans (Nat.le_add_right _ _) (Nat.le_add_right _ _),
    ⟨h6_version _, rfl, inPrefix_h6_daddr c _⟩, hext, ?_⟩
  by_cases hfrag : (egressVars p).isFrag
  · have hfh := fragHdr_load_append_headers hhdr ((egressVars p).h6 c) hfrag l
    refine Or.inr ⟨if_pos hfrag, ?_, ?_⟩
    · rw [if_pos hfrag]
      exact Nat.le_add_right _ _
    · rw [hfh, egressQuote, if_pos hfrag]
  · refine Or.inl ⟨?_, ?_⟩
    · exact h6_nexthdr_ne_fragment hfrag hext
    · rw [egressQuote, if_neg hfrag]

/-- Behind the quoted headers are the quoted transport bytes. -/
theorem drop_quote (c : Constants) (v : EgressVars) {hdr : List UInt8} (hhdr : hdr.length = 8)
    (l : List UInt8) :
    (hdr ++ ((v.h6 c).bytes ++ (v.fragBytes ++ l))).drop ((egressQuote c v).shrink + 28) = l := by
  have hshrink : (egressQuote c v).shrink + 28 =
      8 + ip6Hlen + if v.isFrag then fragHlen else 0 := by
    rw [Quote.shrink, egressQuote_inFrag]
    split
    · rfl
    · rfl
  rw [hshrink]
  exact drop_append_headers hhdr _ _ l

/-- **The embedded header has the fields of the header that was sent.** -/
theorem sameFields_quote (k : Kernel) (hacc : HeaderAccepted c p)
    (hopt : p.headerLength = ip4Hlen) (hproto : PlainProtocol p.protocol) :
    SameFields p ((egressQuote c (egressVars p)).in4 k c) := by
  have hin6 := egressQuote_in6 c (egressVars p)
  refine sameFields_rebuilt hacc hopt hproto.not_isExtHdr.2 rfl rfl ?_ ?_ ?_ ?_ ?_ ?_
  · show (bpfNtohl (egressQuote c (egressVars p)).in6.vtcFlow >>> (20 : UInt32)).toUInt8 = _
    rw [hin6]
  · show bpfHtons (UInt16.ofNat ((bpfNtohs (egressQuote c (egressVars p)).in6.payloadLen).toNat +
      ip4Hlen - if (egressQuote c (egressVars p)).inFrag then fragHlen else 0)) = _
    rw [hin6, toNat_h6_payloadLen hacc, egressQuote_inFrag, Nat.add_right_comm, Nat.add_sub_cancel]
  · exact congrArg bpfHtons (egressQuote_inId c _)
  · exact congrArg bpfHtons (egressQuote_inFrag4 c _)
  · show (egressQuote c (egressVars p)).in6.hopLimit = _
    rw [hin6]
    rfl
  · show (if (egressQuote c (egressVars p)).inNh = ipprotoIcmpv6 then ipprotoIcmp
      else (egressQuote c (egressVars p)).inNh) = _
    rw [egressQuote_inNh]

/-! ## The transport bytes are read back -/

/-- The positions that both programs may have changed in the transport bytes of the packet with
header `p`: the checksum, and the type of an ICMP message. -/
def quotedEdits (p : Iphdr) (i : ℕ) : Prop :=
  p.protocol = ipprotoIcmp ∧ i = 0 ∨ p.offset = 0 ∧ ChecksumField p.protocol i

theorem egressEdits_quoted {i : ℕ} (h : egressEdits (egressVars p) i) : quotedEdits p i := by
  obtain ⟨hfirst, h⟩ := h
  have hoff : p.offset = 0 := egressVars_first.mp hfirst
  have hproto : (egressVars p).proto = p.protocol := rfl
  rw [hproto] at h
  rw [quotedEdits, ChecksumField, csumOffset]
  rcases h with ⟨hp, hi⟩ | ⟨hp, hi⟩ | ⟨hp, rfl | hi⟩
  · rw [hp]
    exact Or.inr ⟨hoff, hi⟩
  · rw [hp]
    exact Or.inr ⟨hoff, hi⟩
  · exact Or.inl ⟨hp, rfl⟩
  · rw [hp]
    exact Or.inr ⟨hoff, hi⟩

theorem quoteEdits_quoted (hacc : HeaderAccepted c p) (hproto : PlainProtocol p.protocol) {i : ℕ}
    (h : quoteEdits (egressQuote c (egressVars p)) i) : quotedEdits p i := by
  have hnh6 : (egressVars p).nh6 = if p.protocol = ipprotoIcmp then ipprotoIcmpv6 else p.protocol :=
    rfl
  rw [quoteEdits, egressQuote_inNh, egressQuote_inFrag, egressQuote_inFrag4, hnh6] at h
  have hoffset : returnFrag4 (egressVars p) &&& ipOffset = 0 → p.offset = 0 := by
    intro hzero
    rw [← returnFrag4_offset, ← toNat_and_ipOffset, hzero]
    rfl
  rw [quotedEdits, ChecksumField, csumOffset]
  rcases hproto with hp | hp | hp
  · rw [hp] at h ⊢
    rcases h with ⟨hicmp, -⟩ | ⟨-, hzero, hi⟩
    · exact absurd hicmp (by decide)
    · exact Or.inr ⟨hoffset hzero, hi⟩
  · rw [hp] at h ⊢
    rcases h with ⟨hicmp, -⟩ | ⟨-, hzero, hi⟩
    · exact absurd hicmp (by decide)
    · exact Or.inr ⟨hoffset hzero, hi⟩
  · have hoff := (hacc.not_isFrag_of_icmp hp).2
    rw [hp] at h ⊢
    rcases h with ⟨-, -, rfl | hi⟩ | ⟨hcoff, -⟩
    · exact Or.inl ⟨rfl, rfl⟩
    · exact Or.inr ⟨hoff, hi⟩
    · exact absurd rfl hcoff

section Transport

variable {st : IpSummed} {l4 l4' : List UInt8} {d : UInt32} {m : ℕ} {x : List UInt8 × UInt32}

/-- The type of an echo that egress has translated. -/
theorem egressPayload_icmpType (hacc : HeaderAccepted c p) (hicmp : p.protocol = ipprotoIcmp)
    (h : egressPayload k c st (egressVars p) l4 = .ok l4') :
    4 ≤ l4.length ∧ egressIcmpType (load8 l4 0) = .ok (load8 l4' 0) := by
  rw [egressPayload_icmp (hacc.not_isFrag_of_icmp hicmp).2 hicmp] at h
  obtain ⟨hlen, t6, ht6, rfl⟩ := egressIcmpBytes_eq_ok.mp h
  exact ⟨hlen, ht6.trans (congrArg Except.ok (load8_updateCsum_type hlen t6).symm)⟩

theorem load8_take_zero {l : List UInt8} (hm : 0 < m) : load8 (l.take m) 0 = load8 l 0 :=
  @load8_slice l 0 m 0 hm

/-- A quote that holds the first four bytes of an echo is translated. -/
theorem innerIcmpBytes_egress (k : Kernel) (hacc : HeaderAccepted c p)
    (hproto : PlainProtocol p.protocol)
    (h : egressPayload k c st (egressVars p) l4 = .ok l4') (d : UInt32)
    (hm : p.protocol = ipprotoIcmp → 4 ≤ m) :
    ∃ x, innerIcmpBytes k (egressQuote c (egressVars p)) d (l4'.take m) = .ok x ∧
      (p.protocol = ipprotoIcmp →
        x.1 = innerEcho4 k (egressQuote c (egressVars p)) (l4'.take m)) := by
  rw [innerIcmpBytes, egressQuote_inNh, egressQuote_inFrag]
  by_cases hicmp : p.protocol = ipprotoIcmp
  · have hnh6 : (egressVars p).nh6 = ipprotoIcmpv6 := if_pos hicmp
    have hfrag := (hacc.not_isFrag_of_icmp hicmp).1
    obtain ⟨hlen, htype⟩ := egressPayload_icmpType hacc hicmp h
    have hm' := hm hicmp
    have hlen' : 4 ≤ (l4'.take m).length := by
      rw [List.length_take, (egressPayload_sameExcept h).1]
      omega
    rw [hnh6, hfrag, if_pos ⟨rfl, Bool.false_ne_true⟩]
    refine ⟨_, innerEchoBytes_eq_ok.mpr ⟨by omega, Or.inr ⟨?_, hlen', rfl⟩⟩, fun _ => rfl⟩
    rw [load8_take_zero (by omega)]
    exact (echo_of_egressIcmpType htype).1
  · have hnh6 : (egressVars p).nh6 = p.protocol := if_neg hicmp
    rw [hnh6, if_neg fun h' => hproto.not_isExtHdr.2 h'.1]
    exact ⟨_, rfl, fun h' => absurd h' hicmp⟩

/-- The quoted checksum of an ICMP message is not looked at as one of TCP or UDP. -/
theorem innerCsumBytes_of_icmp {q : Quote} (hq : q.inNh = ipprotoIcmpv6) (inner : List UInt8)
    (present : Bool) : (innerCsumBytes k c q d inner present).1 = inner := by
  have hcoff : innerCoff q.inNh = 0 := by
    rw [hq]
    rfl
  rw [innerCsumBytes, if_neg fun h => h.1.1 hcoff]

/-- **The transport bytes of a quote** are the beginning of the bytes that were sent, the checksum
apart. -/
theorem quoted_transport (hacc : HeaderAccepted c p) (hproto : PlainProtocol p.protocol)
    (h : egressPayload k c st (egressVars p) l4 = .ok l4')
    (hm : p.protocol = ipprotoIcmp → 4 ≤ m) (d : UInt32) :
    ∃ x, innerIcmpBytes k (egressQuote c (egressVars p)) d (l4'.take m) = .ok x ∧
      ∀ present, SameExcept (fun i => p.offset = 0 ∧ ChecksumField p.protocol i) (l4.take m)
        (innerCsumBytes k c (egressQuote c (egressVars p)) x.2 x.1 present).1 := by
  obtain ⟨x, hx, hecho⟩ := innerIcmpBytes_egress k hacc hproto h d hm
  refine ⟨x, hx, fun present => ?_⟩
  have hall : SameExcept (quotedEdits p) (l4.take m)
      (innerCsumBytes k c (egressQuote c (egressVars p)) x.2 x.1 present).1 :=
    (((egressPayload_sameExcept h).take m).mono fun i hi => egressEdits_quoted hi).trans
      (((innerIcmpBytes_sameExcept hx).trans (innerCsumBytes_sameExcept present)).mono fun i hi =>
        quoteEdits_quoted hacc hproto hi)
  refine hall.restore fun j hj hno => ?_
  -- what is left is the type of an echo, and ingress takes back what egress did to it
  obtain ⟨hicmp, rfl⟩ := hj.resolve_right hno
  obtain ⟨hlen, htype⟩ := egressPayload_icmpType hacc hicmp h
  have hm' := hm hicmp
  have hin : 4 ≤ (l4'.take m).length := by
    rw [List.length_take, (egressPayload_sameExcept h).1]
    omega
  have hone : 0 + [innerEchoType (load8 (l4'.take m) 0)].length ≤ (l4'.take m).length :=
    singleton_fits _ (by omega)
  refine ⟨?_, ?_⟩
  · rw [List.length_take]
    omega
  · have hnh : (egressQuote c (egressVars p)).inNh = ipprotoIcmpv6 :=
      (egressQuote_inNh c _).trans (if_pos hicmp)
    rw [innerCsumBytes_of_icmp hnh, hecho hicmp, innerEcho4,
      load8_splice_of_disjoint (by rwa [length_splice hone]) (Or.inl (by decide)),
      load8_splice_head, load8_take_zero (by omega), load8_take_zero (by omega)]
    exact (echo_of_egressIcmpType htype).2.2

end Transport

/-! ## The error -/

/-- The frame `e` is an ICMPv6 error to the pod, from anywhere and without extension headers, of a
kind that ICMPv4 has too, and it quotes a beginning of the IPv6 packet in the frame `q`. -/
structure ErrorAbout (c : Constants) (q e : List UInt8) : Prop where
  etherType : HasEtherType e ethPIpv6
  version : (Ipv6hdr.load e ethHlen).version = 6
  daddr : (Ipv6hdr.load e ethHlen).daddr = c.podIp6
  nexthdr : (Ipv6hdr.load e ethHlen).nexthdr = ipprotoIcmpv6
  mapped : (icmpMapOf (slice e (ethHlen + ip6Hlen) 8)).1.ok = true
  quote : e.drop (ethHlen + ip6Hlen + 8) <+: q.drop ethHlen

/-- The length of the headers of egress for a packet with header `p`. -/
def quotedHeaders (p : Iphdr) : ℕ :=
  ip6Hlen + if p.IsFragment then fragHlen else 0

/-- The quote holds the headers of egress and, of an echo, the first four bytes. -/
def EnoughQuoted (p : Iphdr) (quote : List UInt8) : Prop :=
  quotedHeaders p + (if p.protocol = ipprotoIcmp then 4 else 0) ≤ quote.length

instance (p : Iphdr) (quote : List UInt8) : Decidable (EnoughQuoted p quote) :=
  inferInstanceAs (Decidable (_ ≤ _))

/-- The frame `out` is an ICMPv4 error that embeds the beginning of the packet in the IPv4 frame
`data`: as much of it as the ICMPv6 error `e` quotes of its translation. -/
structure QuotedBack (c : Constants) (data e out : List UInt8) : Prop where
  error : RouterError c (Ipv6hdr.load e (ethHlen + ip6Hlen + 8)).daddr out
  fields : SameFields (Iphdr.load data ethHlen) (Iphdr.load out (ethHlen + ip4Hlen + 8))
  saddr : (Iphdr.load out (ethHlen + ip4Hlen + 8)).saddr = c.podIp4
  daddr : (Iphdr.load out (ethHlen + ip4Hlen + 8)).daddr = (Iphdr.load data ethHlen).daddr
  verifies : Verifies (slice out (ethHlen + ip4Hlen + 8) ip4Hlen)
  transport : SameExcept
    (fun i => (Iphdr.load data ethHlen).offset = 0 ∧
      ChecksumField (Iphdr.load data ethHlen).protocol i)
    ((transportBytes4 data).take ((e.drop (ethHlen + ip6Hlen + 8)).length
      - quotedHeaders (Iphdr.load data ethHlen)))
    (out.drop innerL4off)

/-- The types of the errors that have a translation. -/
theorem type_of_icmp6ToIcmp4 {type code : UInt8} {pointer6 pointer4 : UInt32}
    (h : (icmp6ToIcmp4 type code pointer6 pointer4).1.ok = true) : 1 ≤ type ∧ type ≤ 4 := by
  revert h
  rw [icmp6ToIcmp4]
  split
  · next htype =>
    subst htype
    exact fun _ => by decide
  split
  · next htype =>
    subst htype
    exact fun _ => by decide
  split
  · next htype =>
    subst htype
    exact fun _ => by decide
  split
  · next htype =>
    subst htype
    exact fun _ => by decide
  · exact fun h => absurd h Bool.false_ne_true

section Error

variable {q e : List UInt8}

theorem ErrorAbout.type (he : ErrorAbout c q e) :
    1 ≤ load8 e (ethHlen + ip6Hlen) ∧ load8 e (ethHlen + ip6Hlen) ≤ 4 := by
  have h := type_of_icmp6ToIcmp4 he.mapped
  rwa [load8_slice (by decide)] at h

/-- The quote, part by part. -/
theorem ErrorAbout.parts {hd l4 : List UInt8} (hhd : hd.length = ethHlen)
    (hq : q = hd ++ (((egressVars p).h6 c).bytes ++ ((egressVars p).fragBytes ++ l4)))
    (he : ErrorAbout c q e) (henough : EnoughQuoted p (e.drop (ethHlen + ip6Hlen + 8))) :
    e.drop (ethHlen + ip6Hlen + 8) = ((egressVars p).h6 c).bytes ++ ((egressVars p).fragBytes ++
      l4.take ((e.drop (ethHlen + ip6Hlen + 8)).length - quotedHeaders p)) := by
  have hquote := he.quote
  rw [hq, List.drop_left' hhd, ← List.append_assoc] at hquote
  have hlen : (((egressVars p).h6 c).bytes ++ (egressVars p).fragBytes).length
      = quotedHeaders p := by
    rw [List.length_append, Ipv6hdr.length_bytes, length_fragBytes, quotedHeaders,
      if_congr egressVars_isFrag rfl rfl]
  have hle : quotedHeaders p ≤ (e.drop (ethHlen + ip6Hlen + 8)).length :=
    le_trans (Nat.le_add_right _ _) henough
  have h := eq_append_take hquote (by rwa [hlen])
  rwa [hlen, List.append_assoc] at h

/-- `clat_ingress` reads the headers of an error. -/
theorem ErrorAbout.vars_eq (he : ErrorAbout c q e) :
    ingressVars c e = .ok (plainVars (Ipv6hdr.load e ethHlen) (Ipv6hdr.load e ethHlen).saddr
      (Ipv6hdr.load e ethHlen).daddr (inPrefix c (Ipv6hdr.load e ethHlen).saddr)) := by
  have hnh := he.nexthdr
  rw [ingressVars_eq_ok]
  refine ⟨?_, fun h => Bool.false_ne_true h.2, Or.inl ⟨?_, rfl⟩⟩
  · show isExtHdr (Ipv6hdr.load e ethHlen).nexthdr = false
    rw [hnh]
    decide
  · rw [hnh]
    decide

/-- An error about a packet of the pod is return traffic, wherever it comes from. -/
theorem ErrorAbout.returnTraffic (he : ErrorAbout c q e) {quoted : Quote}
    (hquoted : quoteBytes c (e.drop (ethHlen + ip6Hlen)) = .ok quoted) :
    ReturnTraffic c e ∧ ethHlen + ip6Hlen + fragHlen ≤ e.length := by
  obtain ⟨hlen, hpod, -⟩ := quoteBytes_eq_ok.mp hquoted
  rw [Ipv6hdr.load_drop] at hpod
  rw [List.length_drop] at hlen
  have hlong : ethHlen + ip6Hlen + 8 + ip6Hlen ≤ e.length := by
    revert hlen
    simp only [ethHlen, ip6Hlen]
    omega
  refine ⟨⟨he.etherType.2, le_trans (by decide) hlong, he.version, he.daddr, Or.inr ?_⟩,
    le_trans (by decide) hlong⟩
  exact ⟨he.nexthdr, hlong, he.type.1, he.type.2, hpod⟩

/-- What follows the IPv6 header of an error, once its quote is read and translated. -/
theorem ErrorAbout.payload_eq (he : ErrorAbout c q e) (st : IpSummed) {v : IngressVars}
    (hv : ReadAs c e v) {quoted : Quote}
    (hquoted : quoteBytes c (e.drop (ethHlen + ip6Hlen)) = .ok quoted) {x : List UInt8 × UInt32}
    (hx : innerIcmpBytes k quoted (errorDiff k c v quoted (slice e (ethHlen + ip6Hlen) 8))
      ((e.drop (ethHlen + ip6Hlen)).drop (quoted.shrink + 28)) = .ok x) :
    ingressErrorBytes k c st v ((v.l4 e).take 8) (v.l4 e)
        = .ok (errorOut k c st v (slice e (ethHlen + ip6Hlen) 8) quoted x) ∧
      ingressPayload k c st v (v.l4 e)
        = .ok (errorOut k c st v (slice e (ethHlen + ip6Hlen) 8) quoted x) := by
  have hplain : (Ipv6hdr.load e ethHlen).nexthdr ≠ ipprotoFragment := by
    rw [he.nexthdr]
    decide
  have hl4 : v.l4 e = e.drop (ethHlen + ip6Hlen) := hv.l4_of_plain hplain
  have hnh : v.nh = ipprotoIcmpv6 := by
    rw [hv.nh, transport6, if_neg hplain, he.nexthdr]
  have hfirst : v.first = true := hv.first.mpr (if_neg hplain)
  have herror : ingressErrorBytes k c st v ((v.l4 e).take 8) (v.l4 e)
      = .ok (errorOut k c st v (slice e (ethHlen + ip6Hlen) 8) quoted x) := by
    rw [hl4]
    exact ingressErrorBytes_eq_ok.mpr ⟨he.mapped, quoted, hquoted, x, hx, rfl⟩
  have hno : ¬ IsEcho6 (load8 (v.l4 e) 0) := by
    intro hecho
    rw [hl4, load8_drop] at hecho
    exact hecho.not_le he.type.2
  have hlen : 8 ≤ (v.l4 e).length := by
    rw [hl4]
    exact le_trans (Nat.le_add_right _ _) (quoteBytes_eq_ok.mp hquoted).1
  refine ⟨herror, ?_⟩
  rw [ingressPayload_icmp hfirst hnh]
  exact ingressIcmpBytes_eq_ok.mpr ⟨hlen, Or.inr ⟨hno, herror⟩⟩

/-- A translated error whose parts came back. -/
theorem quotedBack_of_parts {st : IpSummed} {data hdr : List UInt8} {v : IngressVars}
    {quoted : Quote} {x : List UInt8 × UInt32} {present : Bool}
    (hrouter : RouterError c (Ipv6hdr.load e (ethHlen + ip6Hlen + 8)).daddr
      (ingressHeaders k c v e (errorOut k c st v hdr quoted x present).1
        ++ (errorOut k c st v hdr quoted x present).2))
    (hlen : 12 ≤ e.length) (hfields : SameFields (Iphdr.load data ethHlen) (quoted.in4 k c))
    (hdaddr : quoted.in6.daddr.w3 = (Iphdr.load data ethHlen).daddr)
    (htransport : SameExcept
      (fun i => (Iphdr.load data ethHlen).offset = 0 ∧
        ChecksumField (Iphdr.load data ethHlen).protocol i)
      ((transportBytes4 data).take ((e.drop (ethHlen + ip6Hlen + 8)).length
        - quotedHeaders (Iphdr.load data ethHlen)))
      (innerCsumBytes k c quoted x.2 x.1 present).1) :
    QuotedBack c data e (ingressHeaders k c v e (errorOut k c st v hdr quoted x present).1
      ++ (errorOut k c st v hdr quoted x present).2) := by
  obtain ⟨icmp, -, hmsg⟩ :=
    errorMessage_eq k c st quoted hdr (innerCsumBytes k c quoted x.2 x.1 present)
  have hsnd : (errorOut k c st v hdr quoted x present).2 = icmp.bytes ++
      ((quoted.in4 k c).bytes ++ (innerCsumBytes k c quoted x.2 x.1 present).1) := hmsg
  generalize (errorOut k c st v hdr quoted x present).1 = totLen at hrouter ⊢
  rw [hsnd] at hrouter ⊢
  have hinner := iphdr_load_embedded k c v totLen hlen icmp (quoted.in4 k c)
    (innerCsumBytes k c quoted x.2 x.1 present).1
  refine ⟨hrouter, ?_, hrouter.saddr, ?_, hrouter.verifies, ?_⟩
  · rw [hinner]
    exact hfields
  · rw [hinner]
    exact hdaddr
  · have hhd : (ingressHeaders k c v e totLen ++ (icmp.bytes ++ (quoted.in4 k c).bytes)).length
        = innerL4off := by
      rw [List.length_append, List.length_append, length_ingressHeaders hlen, Icmphdr.length_bytes,
        Iphdr.length_bytes]
    rw [← List.append_assoc icmp.bytes, ← List.append_assoc (ingressHeaders k c v e totLen),
      List.drop_left' hhd]
    exact htransport

/-- **The ingress translation of an error.** -/
theorem ingressFrame_error (hk : k.Lawful) {st st' : IpSummed} {data : List UInt8}
    (h : egressFrame k c st data = .ok q)
    (hopt : (Iphdr.load data ethHlen).headerLength = ip4Hlen)
    (hproto : PlainProtocol (Iphdr.load data ethHlen).protocol) (he : ErrorAbout c q e)
    (henough : EnoughQuoted (Iphdr.load data ethHlen) (e.drop (ethHlen + ip6Hlen + 8))) :
    ReturnTraffic c e ∧ ethHlen + ip6Hlen + fragHlen ≤ e.length ∧
      ∃ out, ingressFrame k c st' e = .ok out ∧ ∀ present, QuotedBack c data e (out present) := by
  obtain ⟨hlen, hacc, l4, hl4, hq⟩ := egressFrame_parts h
  have hparts := he.parts (length_macHeader (le_trans (by decide) hlen) _) hq henough
  have hm : (Iphdr.load data ethHlen).protocol = ipprotoIcmp →
      4 ≤ (e.drop (ethHlen + ip6Hlen + 8)).length - quotedHeaders (Iphdr.load data ethHlen) := by
    intro hicmp
    rw [EnoughQuoted, if_pos hicmp] at henough
    omega
  have hlong : ethHlen + ip6Hlen + 8 ≤ e.length := by
    have h40 : 40 ≤ (e.drop (ethHlen + ip6Hlen + 8)).length :=
      le_trans (le_trans (Nat.le_add_right _ _) (Nat.le_add_right _ _)) henough
    rw [List.length_drop] at h40
    omega
  have hhdr : (slice e (ethHlen + ip6Hlen) 8).length = 8 := length_slice hlong
  generalize hmdef : (e.drop (ethHlen + ip6Hlen + 8)).length
    - quotedHeaders (Iphdr.load data ethHlen) = m at hparts hm
  have hmsg : e.drop (ethHlen + ip6Hlen) = slice e (ethHlen + ip6Hlen) 8 ++
      (((egressVars (Iphdr.load data ethHlen)).h6 c).bytes ++
        ((egressVars (Iphdr.load data ethHlen)).fragBytes ++ l4.take m)) := by
    rw [drop_eq_slice_append _ _ 8, hparts]
  have hquote := quoteBytes_egress c hproto hhdr (l4.take m)
  rw [← hmsg] at hquote
  have hinner := drop_quote c (egressVars (Iphdr.load data ethHlen)) hhdr (l4.take m)
  rw [← hmsg] at hinner
  obtain ⟨hret, hlen'⟩ := he.returnTraffic hquote
  have hv := he.vars_eq
  have hread := ingressVars_readAs hv
  generalize plainVars (Ipv6hdr.load e ethHlen) (Ipv6hdr.load e ethHlen).saddr
    (Ipv6hdr.load e ethHlen).daddr (inPrefix c (Ipv6hdr.load e ethHlen).saddr) = v at hv hread
  obtain ⟨x, hx, hsame⟩ := quoted_transport hacc hproto hl4 hm (errorDiff k c v
    (egressQuote c (egressVars (Iphdr.load data ethHlen))) (slice e (ethHlen + ip6Hlen) 8))
  rw [← hinner] at hx
  obtain ⟨herror, hpay⟩ := he.payload_eq st' hread hquote hx
  refine ⟨hret, hlen', _, ingressFrame_eq_ok.mpr ⟨v, _, hv, hpay, rfl⟩, fun present => ?_⟩
  have h12 : 12 ≤ e.length := le_trans (by decide) hlong
  refine quotedBack_of_parts (routerError_of_readAs hk h12 hread he.nexthdr herror present) h12
    (sameFields_quote k hacc hopt hproto) ?_ ?_
  · rw [egressQuote_in6]
    rfl
  · rw [hmdef]
    exact hsame present

end Error

/-- **Quoted packets come back as what the pod sent.**  Whatever a mappable ICMPv6 error quotes of a
translated packet without options, if the headers are there and the first four bytes of an echo, the
error is translated and embeds what the pod sent. -/
theorem quoted_packet_comes_back (hk : k.Lawful) (h : EgressTranslates k c s)
    (hopt : (Iphdr.load s.skb.data ethHlen).headerLength = ip4Hlen)
    (hproto : PlainProtocol (Iphdr.load s.skb.data ethHlen).protocol) {e : State}
    (he : ErrorAbout c (clatEgress k c s).2.skb.data e.skb.data)
    (henough : EnoughQuoted (Iphdr.load s.skb.data ethHlen)
      (e.skb.data.drop (ethHlen + ip6Hlen + 8)))
    (hn : NoFault k e ethPIpv6) :
    (clatIngress k c e).1 = .ok ∧
      QuotedBack c s.skb.data e.skb.data (clatIngress k c e).2.skb.data := by
  obtain ⟨hret, hlong, out, hout, hback⟩ := ingressFrame_error hk (h.out hk) hopt hproto he henough
  obtain ⟨hok, hdata⟩ := clatIngress_of_frame hk hn hret hlong hout
  rw [hdata]
  exact ⟨hok, hback true⟩

/-- A Destination Unreachable from a router outside the prefix, about the packet in the frame `q`,
of which it quotes `n` bytes. -/
def testErrorAbout (q : List UInt8) (n : ℕ) : List UInt8 :=
  testFrame6 58 [0x20, 0x01, 0x0d, 0xb8, 0, 1, 0, 0, 0, 0, 0, 0, 0, 0, 0, 1]
    ([1, 0, 0, 0, 0, 0, 0, 0] ++ (q.drop ethHlen).take n)

/-- The first eight bytes of a TCP segment, in a first fragment, quoted by a router. -/
theorem quoted_packet_comes_back_fragment :
    let s := testState (testFrame4 0x2000 6 (List.range 24 |>.map UInt8.ofNat)) ethPIp
    let e := testState (testErrorAbout (clatEgress .reference testConstants s).2.skb.data 56)
      ethPIpv6
    EgressTranslates .reference testConstants s ∧
      ErrorAbout testConstants (clatEgress .reference testConstants s).2.skb.data e.skb.data ∧
      (clatIngress .reference testConstants e).1 = .ok ∧
      QuotedBack testConstants s.skb.data e.skb.data
        (clatIngress .reference testConstants e).2.skb.data := by
  intro s e
  have h : EgressTranslates .reference testConstants s := by decide +kernel
  have he : ErrorAbout testConstants (clatEgress .reference testConstants s).2.skb.data
      e.skb.data :=
    ⟨by decide +kernel, by decide +kernel, by decide +kernel, by decide +kernel, by decide +kernel,
      by decide +kernel⟩
  have hn : NoFault .reference e ethPIpv6 := ⟨Kernel.reference_reliable, rfl⟩
  exact ⟨h, he, quoted_packet_comes_back Kernel.reference_lawful h (by decide) (Or.inl (by decide))
    he (by decide +kernel) hn⟩

end CiliumClat
