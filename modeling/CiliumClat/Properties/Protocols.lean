import CiliumClat.Properties.Quotes

/-!
# Which protocols come out

IPv4 protocol numbers and IPv6 next headers are one number space, and the programs change one
number in it: ICMP, which is 1 in IPv4 and 58 in IPv6.  All other numbers are carried over, and
two kinds of them mean something else on the other side.

* The number 58 in an IPv4 header is no ICMP to egress, and 1 in an IPv6 header is no ICMPv6 to
  ingress; so neither is checked, and both come out under the number of ICMP.
* The numbers of the IPv6 extension headers mean nothing in IPv4, and egress does not look for
  them; the payload behind such a number is an extension header once the packet is IPv6.

The theorems say that nothing else goes wrong: they are equivalences, with the protocol of the
packet on one side.  What an IPv6 packet carries is read off its chain of headers
(`headerChain`).
-/

namespace CiliumClat

open ByteList

variable {k : Kernel} {c : Constants} {s : State}

/-! ## The chain of headers -/

/-- `IPPROTO_NONE`: nothing follows. -/
abbrev ipprotoNone : UInt8 := 59

/-- The length of the extension header `nh` at the front of `l`: a Fragment header has eight bytes,
an Authentication Header counts words of four, the others count in units of eight. -/
def extHdrLen (nh : UInt8) (l : List UInt8) : ℕ :=
  if nh = ipprotoFragment then fragHlen
  else if nh = 51 then ((load8 l 1).toNat + 2) * 4
  else ((load8 l 1).toNat + 1) * 8

/-- The extension headers met from the next header `nh` on, in the sense of `is_ext_hdr`, and the
number behind them.  The first byte of an extension header is the number of the next one. -/
def headerChain : ℕ → UInt8 → List UInt8 → List UInt8 × UInt8
  | 0, nh, _ => ([], nh)
  | fuel + 1, nh, l =>
    if isExtHdr nh then
      if nh = ipprotoNone ∨ l.length < extHdrLen nh l then ([nh], nh)
      else
        (nh :: (headerChain fuel (load8 l 0) (l.drop (extHdrLen nh l))).1,
          (headerChain fuel (load8 l 0) (l.drop (extHdrLen nh l))).2)
    else ([], nh)

/-- The chain from the next header `nh` through the bytes `l`: a header has at least one byte. -/
def chainOf (nh : UInt8) (l : List UInt8) : List UInt8 × UInt8 :=
  headerChain (l.length + 1) nh l

/-- The extension headers of an IPv6 frame. -/
def extensionHeaders (data : List UInt8) : List UInt8 :=
  (chainOf (Ipv6hdr.load data ethHlen).nexthdr (data.drop (ethHlen + ip6Hlen))).1

/-- The upper-layer protocol of an IPv6 frame. -/
def upperLayer (data : List UInt8) : UInt8 :=
  (chainOf (Ipv6hdr.load data ethHlen).nexthdr (data.drop (ethHlen + ip6Hlen))).2

theorem extHdrLen_pos (nh : UInt8) (l : List UInt8) : 0 < extHdrLen nh l := by
  rw [extHdrLen]
  split
  · decide
  split
  · omega
  · omega

theorem headerChain_of_not_ext {nh : UInt8} (h : isExtHdr nh = false) (fuel : ℕ) (l : List UInt8) :
    headerChain fuel nh l = ([], nh) := by
  cases fuel with
  | zero => rfl
  | succ fuel => rw [headerChain, if_neg (by rw [h]; exact Bool.false_ne_true)]

/-- A chain that starts with an extension header has it first. -/
theorem headerChain_of_ext {nh : UInt8} (h : isExtHdr nh = true) (fuel : ℕ) (l : List UInt8) :
    ∃ r, (headerChain (fuel + 1) nh l).1 = nh :: r := by
  rw [headerChain, if_pos h]
  split
  · exact ⟨[], rfl⟩
  · exact ⟨_, rfl⟩

/-- **The bytes bound the chain**: more rounds than bytes change nothing. -/
theorem headerChain_eq_chainOf : ∀ {fuel : ℕ} {nh : UInt8} {l : List UInt8}, l.length < fuel →
    headerChain fuel nh l = chainOf nh l := by
  intro fuel
  induction fuel using Nat.strong_induction_on with
  | _ fuel ih =>
    intro nh l hlt
    obtain ⟨fuel, rfl⟩ : ∃ n, fuel = n + 1 := ⟨fuel - 1, by omega⟩
    rw [chainOf, headerChain, headerChain]
    by_cases hext : isExtHdr nh = true
    swap
    · rw [if_neg hext, if_neg hext]
    rw [if_pos hext, if_pos hext]
    by_cases hstop : nh = ipprotoNone ∨ l.length < extHdrLen nh l
    · rw [if_pos hstop, if_pos hstop]
    · -- the rest is shorter than both bounds, so both walks agree on it
      have hpos := extHdrLen_pos nh l
      have hrest : (l.drop (extHdrLen nh l)).length < l.length := by
        rw [List.length_drop]
        omega
      rw [if_neg hstop, if_neg hstop, ih fuel (by omega) (by omega),
        ih l.length (by omega) hrest]

/-- A Fragment header in front adds itself to the chain, whatever it says. -/
theorem chainOf_fragment (fh : FragHdr) (l : List UInt8) :
    chainOf ipprotoFragment (fh.bytes ++ l) =
      (ipprotoFragment :: (chainOf fh.nexthdr l).1, (chainOf fh.nexthdr l).2) := by
  have hlen : (fh.bytes ++ l).length = fragHlen + l.length := by
    rw [List.length_append, FragHdr.length_bytes]
  have hdrop : (fh.bytes ++ l).drop (extHdrLen ipprotoFragment (fh.bytes ++ l)) = l :=
    List.drop_left' (FragHdr.length_bytes fh)
  have hnext : load8 (fh.bytes ++ l) 0 = fh.nexthdr := rfl
  have hgo : ¬ (ipprotoFragment = ipprotoNone ∨
      (fh.bytes ++ l).length < extHdrLen ipprotoFragment (fh.bytes ++ l)) := by
    rintro (h | h)
    · exact absurd h (by decide)
    · rw [hlen] at h
      exact absurd h (not_lt.mpr (Nat.le_add_right _ _))
  rw [chainOf, headerChain, if_pos (by decide), if_neg hgo, hdrop, hnext,
    headerChain_eq_chainOf (by rw [hlen]; exact Nat.lt_add_of_pos_left (by decide))]

/-! ## The chain of a translated packet -/

/-- What egress does not know it leaves as it is. -/
theorem egressPayload_of_ext {st : IpSummed} {ip4 : Iphdr} {l4 out : List UInt8}
    (hext : isExtHdr ip4.protocol = true)
    (h : egressPayload k c st (egressVars ip4) l4 = .ok out) : out = l4 := by
  have hno : ∀ p : UInt8, isExtHdr p = false → (egressVars ip4).proto ≠ p := by
    rintro p hp rfl
    exact Bool.false_ne_true (hp.symm.trans hext)
  rw [egressPayload, egressL4Bytes, if_neg (hno _ rfl), if_neg (hno _ rfl), if_neg (hno _ rfl),
    ite_self] at h
  exact (Except.ok.inj h).symm

/-- **The chain of an egress translation**: the Fragment header of a fragment, and then what the
protocol number of the IPv4 header leads to. -/
theorem chainOf_egress (c : Constants) (v : EgressVars) (l4 : List UInt8) :
    chainOf (v.h6 c).nexthdr (v.fragBytes ++ l4) =
      ((if v.isFrag then [ipprotoFragment] else []) ++ (chainOf v.nh6 l4).1,
        (chainOf v.nh6 l4).2) := by
  have hnext : (v.h6 c).nexthdr = if v.isFrag then ipprotoFragment else v.nh6 := rfl
  rw [hnext, EgressVars.fragBytes]
  by_cases hfrag : v.isFrag = true
  · rw [if_pos hfrag, if_pos hfrag, if_pos hfrag, chainOf_fragment]
    rfl
  · rw [if_neg hfrag, if_neg hfrag, if_neg hfrag]
    rfl

/-- The chain of a packet that egress has translated. -/
theorem EgressTranslates.chain (hk : k.Lawful) (h : EgressTranslates k c s) :
    ∃ l4, egressPayload k c s.skb.ipSummed (egressVars (Iphdr.load s.skb.data ethHlen))
        (transportBytes4 s.skb.data) = .ok l4 ∧
      extensionHeaders (clatEgress k c s).2.skb.data =
        (if (Iphdr.load s.skb.data ethHlen).IsFragment then [ipprotoFragment] else []) ++
          (chainOf (nextHeaderOf (Iphdr.load s.skb.data ethHlen).protocol) l4).1 ∧
      upperLayer (clatEgress k c s).2.skb.data =
        (chainOf (nextHeaderOf (Iphdr.load s.skb.data ethHlen).protocol) l4).2 := by
  obtain ⟨-, hload, l4, hl4, hdrop⟩ := h.parts hk
  refine ⟨l4, hl4, ?_, ?_⟩
  · rw [extensionHeaders, hload, hdrop, chainOf_egress]
    exact congrArg (· ++ _) (if_congr egressVars_isFrag rfl rfl)
  · rw [upperLayer, hload, hdrop, chainOf_egress]
    rfl

theorem ingressUdpBytes_ne_exthdr {st : IpSummed} {v : IngressVars} {l4 : List UInt8} :
    ingressUdpBytes k c st v l4 ≠ .error .ingressDropExthdr := by
  refine bind_ne_error (ite_ok_ne_error (by decide)) fun _ => ?_
  split
  · exact error_ne_error (by decide)
  · exact ite_ok_ne_error (by decide)

theorem quoteBytes_ne_exthdr {l4 : List UInt8} : quoteBytes c l4 ≠ .error .ingressDropExthdr := by
  refine bind_ne_error (ite_ok_ne_error (by decide)) fun b => ?_
  split
  swap
  · exact error_ne_error (by decide)
  refine bind_ne_error ?_ fun q => ?_
  · rw [quoteFragmentBytes]
    split
    · exact bind_ne_error (ite_ok_ne_error (by decide)) fun _ => ok_ne_error
    · exact ok_ne_error
  · split
    · exact error_ne_error (by decide)
    · exact ok_ne_error

theorem innerIcmpBytes_ne_exthdr {q : Quote} {d : UInt32} {inner : List UInt8} :
    innerIcmpBytes k q d inner ≠ .error .ingressDropExthdr := by
  rw [innerIcmpBytes]
  split
  swap
  · exact ok_ne_error
  refine bind_ne_error (ite_ok_ne_error (by decide)) fun it => ?_
  split
  swap
  · exact ok_ne_error
  refine bind_ne_error (ite_ok_ne_error (by decide)) fun oc => ?_
  refine bind_ne_error (ite_ok_ne_error (by decide)) fun inner => ?_
  exact bind_ne_error (ite_ok_ne_error (by decide)) fun _ => ok_ne_error

/-- Behind the headers nothing is dropped for an extension header, a quoted one included. -/
theorem ingressPayload_ne_exthdr {st : IpSummed} {v : IngressVars} {l4 : List UInt8} :
    ingressPayload k c st v l4 ≠ .error .ingressDropExthdr := by
  rw [ingressPayload, ingressL4Bytes]
  split
  swap
  · exact ok_ne_error
  split
  · exact bind_ne_error (ite_ok_ne_error (by decide)) fun _ => ok_ne_error
  split
  · exact bind_ne_error ingressUdpBytes_ne_exthdr fun _ => ok_ne_error
  split
  swap
  · exact ok_ne_error
  refine bind_ne_error (ite_ok_ne_error (by decide)) fun hdr => ?_
  split
  · refine bind_ne_error ?_ fun _ => ok_ne_error
    exact bind_ne_error (ite_ok_ne_error (by decide)) fun _ => ite_ok_ne_error (by decide)
  rw [ingressErrorBytes]
  split
  · exact error_ne_error (by decide)
  · exact bind_ne_error quoteBytes_ne_exthdr fun q =>
      bind_ne_error innerIcmpBytes_ne_exthdr fun _ => ok_ne_error

/-- **What ingress refuses for its headers**: an extension header in the place of the transport
protocol. -/
theorem ingressFrame_ne_exthdr {st : IpSummed} {data : List UInt8}
    (h : isExtHdr (transport6 data) = false) :
    ingressFrame k c st data ≠ .error .ingressDropExthdr := by
  have hchecks : ∀ v : IngressVars, v.nh = transport6 data →
      ingressChecks v ≠ .error .ingressDropExthdr := by
    intro v hv
    rw [ingressChecks, hv, h, if_neg Bool.false_ne_true]
    split
    · exact error_ne_error (by decide)
    · exact ok_ne_error
  refine bind_ne_error ?_ fun v => bind_ne_error ingressPayload_ne_exthdr fun _ => ok_ne_error
  rw [ingressVars, ingressHeader, ingressFragment]
  by_cases hnh : (Ipv6hdr.load data ethHlen).nexthdr = ipprotoFragment
  · rw [if_pos hnh]
    split
    · exact error_ne_error (by decide)
    split
    · exact error_ne_error (by decide)
    · exact hchecks _ (if_pos hnh).symm
  · rw [if_neg hnh]
    exact hchecks _ (if_neg hnh).symm

/-- Neither number of ICMP is an extension header. -/
theorem isExtHdr_nextHeaderOf (protocol : UInt8) :
    isExtHdr (nextHeaderOf protocol) = isExtHdr protocol := by
  rw [nextHeaderOf]
  split
  · next h => rw [h]; rfl
  · rfl

/-- `clat_ingress` refuses no return traffic of the protocol for its headers. -/
def RepliesAccepted (c : Constants) (protocol : UInt8) : Prop :=
  ∀ (k : Kernel) (r : State), k.Lawful → NoFault k r ethPIpv6 → ReturnTraffic c r.skb.data →
    transport6 r.skb.data = nextHeaderOf protocol →
    (clatIngress k c r).2.counters .ingressDropExthdr = r.counters .ingressDropExthdr

theorem repliesAccepted_of_not_ext {protocol : UInt8} (h : isExtHdr protocol = false) :
    RepliesAccepted c protocol := by
  intro k r hk hn _ hnh
  have hother : ∀ key, key ≠ Counter.ingressDropExthdr →
      bump r.counters key .ingressDropExthdr = r.counters .ingressDropExthdr :=
    fun key hkey => Function.update_of_ne hkey.symm _ _
  have hext : isExtHdr (transport6 r.skb.data) = false := by
    rw [hnh, isExtHdr_nextHeaderOf]
    exact h
  rcases clatIngress_cases hk (False.elim : False → _) False.elim with
    ⟨hpass, -⟩ | ⟨-, ⟨out, -, present, -, htr, -⟩ | ⟨key, -, hdrop, herr⟩⟩
  · rw [hpass.counters]
  · rw [htr.counters]
    exact hother _ (by decide)
  · rw [hdrop.counters]
    refine hother key ?_
    rintro rfl
    exact ingressFrame_ne_exthdr hext (herr hn)

/-- **Egress emits no extension header but its own Fragment header**, and ingress would accept the
replies, exactly if the protocol of the packet is not the number of an extension header. -/
theorem egress_no_extension_header_iff (hk : k.Lawful) (h : EgressTranslates k c s) :
    extensionHeaders (clatEgress k c s).2.skb.data =
          (if (Iphdr.load s.skb.data ethHlen).IsFragment then [ipprotoFragment] else []) ∧
        RepliesAccepted c (Iphdr.load s.skb.data ethHlen).protocol ↔
      isExtHdr (Iphdr.load s.skb.data ethHlen).protocol = false := by
  obtain ⟨l4, -, hchain, -⟩ := h.chain hk
  rw [hchain]
  constructor
  · rintro ⟨hnone, -⟩
    rw [List.append_right_eq_self] at hnone
    by_contra hext
    rw [Bool.not_eq_false, ← isExtHdr_nextHeaderOf] at hext
    obtain ⟨r, hr⟩ := headerChain_of_ext hext l4.length l4
    rw [chainOf, hr] at hnone
    exact nomatch hnone
  · intro hext
    refine ⟨?_, repliesAccepted_of_not_ext hext⟩
    rw [← isExtHdr_nextHeaderOf] at hext
    rw [chainOf, headerChain_of_not_ext hext, List.append_nil]

/-- A fragment of a UDP datagram. -/
theorem egress_no_extension_header_iff_fragment :
    let s := testState (testFrame4 0x2001 17 (List.replicate 16 0)) ethPIp
    EgressTranslates .reference testConstants s ∧
      extensionHeaders (clatEgress .reference testConstants s).2.skb.data = [ipprotoFragment] ∧
      RepliesAccepted testConstants (Iphdr.load s.skb.data ethHlen).protocol := by
  intro s
  have htr : EgressTranslates .reference testConstants s := by decide +kernel
  have hext : isExtHdr (Iphdr.load s.skb.data ethHlen).protocol = false := by decide
  have h := (egress_no_extension_header_iff Kernel.reference_lawful htr).mpr hext
  exact ⟨htr, by decide +kernel, h.2⟩

/-- An IPv4 packet with the protocol 0 leaves with a Hop-by-Hop header that its payload spells out,
and what it says is behind that header, TCP here, is what the packet carries.  A reply with that
number is refused. -/
theorem egress_extension_header_emitted :
    let s := testState (testFrame4 0 0 ([6, 0, 5, 2, 0, 0, 1, 0] ++ List.replicate 20 0)) ethPIp
    let r := testState (testFrame6 0 testPeer6 ([6, 0, 5, 2, 0, 0, 1, 0] ++ List.replicate 20 0))
      ethPIpv6
    EgressTranslates .reference testConstants s ∧
      ¬ (Iphdr.load s.skb.data ethHlen).IsFragment ∧
      extensionHeaders (clatEgress .reference testConstants s).2.skb.data = [0] ∧
      upperLayer (clatEgress .reference testConstants s).2.skb.data = ipprotoTcp ∧
      (clatIngress .reference testConstants r).1 = .shot ∧
      (clatIngress .reference testConstants r).2.counters .ingressDropExthdr = 1 := by
  intro s r
  refine ⟨⟨by decide, by decide +kernel⟩, ?_, ?_, ?_, ?_, ?_⟩
  · decide +kernel
  · decide +kernel
  · decide +kernel
  · decide +kernel
  · decide +kernel

end CiliumClat
