import CiliumClat.Refinement.Helpers
import CiliumClat.Translation.Ingress

/-!
# `clat_ingress` follows the ingress translation

The classification first: it lets a frame pass or finds it to be CLAT return traffic, and in
between it only moves bytes into the linear area.  Then, paragraph by paragraph, what follows the
classification: whatever the helpers do, the program drops the packet or leaves exactly the frame
`ingressFrame` computes, and where no helper fails it drops only what `ingressFrame` drops.  The
statement for the whole program is `clatIngress_cases`.
-/

namespace CiliumClat

open ByteList OnesComplement EarlyExit

/-! ## Classification -/

section Match

variable {r : Run} {reliable : Prop} {k : Kernel} {c : Constants} {s : State} {proto : UInt16}
  {data : List UInt8} (hk : k.Lawful)

/-- Letting a packet pass: the verdict is `TC_ACT_OK`, and the state is where it was. -/
def passStop (r : Run) (proto : UInt16) (data : List UInt8) (v : TcAct) (s : State)
    (_ : Unit) : Prop :=
  v = .ok ∧ At r proto data s

theorem refines_pass {α β : Type} {R : α → β → State → Prop} (hs : At r proto data s)
    {e : Except Unit β} (he : reliable → e = .error ()) :
    Refines (passStop r proto data) reliable (throw TcAct.ok : Clat α) e R s :=
  Refines.of_error (exec_throw s TcAct.ok) ⟨rfl, hs⟩ he

theorem not_fromPod_iff {in6 : Ipv6hdr} :
    (in6.version ≠ 6 ∨ ¬ addr6Eq in6.saddr c.podIp6 = true ∨ ¬ inPrefix c in6.daddr = true) ↔
      ¬ FromPod c in6 := by
  rw [FromPod, addr6Eq_iff]
  tauto

include hk in
/-- The test for a router's error about a CLAT flow. -/
theorem refines_ingressRouterError (hs : At r proto data s)
    (hlin : reliable → ∀ s', At r proto data s' →
      ethHlen + ip6Hlen + 8 + ip6Hlen ≤ data.length →
      Linearises k (ethHlen + ip6Hlen + 8 + ip6Hlen) s') :
    Refines (passStop r proto data) reliable
      (ingressRouterError k c (Ipv6hdr.load data ethHlen))
      (if QuotesPod c data then .ok () else .error ())
      (fun _ _ s' => At r proto data s' ∧ ethHlen + ip6Hlen + fragHlen ≤ s'.skb.headlen) s := by
  rw [ingressRouterError]
  by_cases hnh : (Ipv6hdr.load data ethHlen).nexthdr ≠ ipprotoIcmpv6
  · rw [if_pos hnh]
    exact refines_pass hs fun _ => if_neg fun h => hnh h.1
  rw [if_neg hnh]
  obtain ⟨b, s₁, hexec, hs₁, hhead, hiff⟩ :=
    hs.ensureLinear hk (ethHlen + ip6Hlen + 8 + ip6Hlen)
  refine Refines.exec_step hexec ?_
  cases b with
  | false =>
    refine refines_pass hs₁ fun hrel => if_neg fun h => ?_
    exact absurd (hiff.mpr (hlin hrel s hs h.2.1)) Bool.false_ne_true
  | true =>
    have hhead₁ := hhead rfl
    have hlen : ethHlen + ip6Hlen + 8 + ip6Hlen ≤ data.length := by
      rw [← hs₁.data]
      exact le_trans hhead₁ s₁.skb.headlen_le
    refine Refines.exec_step (exec_get s₁) ?_
    rw [hs₁.data]
    rw [if_neg (not_lt.mpr hhead₁)]
    by_cases htype : load8 data (ethHlen + ip6Hlen) < 1 ∨ load8 data (ethHlen + ip6Hlen) > 4
    · rw [if_pos htype]
      refine refines_pass hs₁ fun _ => if_neg fun h => ?_
      exact htype.elim (fun hlt => absurd hlt (UInt8.not_lt.mpr h.2.2.1))
        fun hgt => absurd hgt (UInt8.not_lt.mpr h.2.2.2.1)
    rw [if_neg htype]
    by_cases hpod : FromPod c (Ipv6hdr.load data (ethHlen + ip6Hlen + 8))
    · rw [if_neg fun h => not_fromPod_iff.mp h hpod]
      have hquotes : QuotesPod c data :=
        ⟨not_not.mp hnh, hlen, UInt8.not_lt.mp fun h => htype (Or.inl h),
          UInt8.not_lt.mp fun h => htype (Or.inr h), hpod⟩
      rw [if_pos hquotes]
      exact Refines.pure ⟨hs₁, le_trans (by decide) hhead₁⟩
    · rw [if_pos (not_fromPod_iff.mpr hpod)]
      exact refines_pass hs₁ fun _ => if_neg fun h => hpod h.2.2.2.2

include hk in
/-- The test on a frame whose first 62 bytes are linear. -/
theorem refines_ingressClassify (hs : At r proto data s)
    (hhead : ethHlen + ip6Hlen + fragHlen ≤ s.skb.headlen)
    (het : load16 data 12 = bpfHtons ethPIpv6)
    (hlin : reliable → inPrefix c (Ipv6hdr.load data ethHlen).saddr = false → ∀ s',
      At r proto data s' → ethHlen + ip6Hlen + 8 + ip6Hlen ≤ data.length →
      Linearises k (ethHlen + ip6Hlen + 8 + ip6Hlen) s') :
    Refines (passStop r proto data) reliable (ingressClassify k c)
      (if ReturnTraffic c data then
        .ok ((Ipv6hdr.load data ethHlen).saddr, (Ipv6hdr.load data ethHlen).daddr,
          inPrefix c (Ipv6hdr.load data ethHlen).saddr)
      else .error ())
      (fun a b s' => a = b ∧ At r proto data s' ∧
        ethHlen + ip6Hlen + fragHlen ≤ s'.skb.headlen) s := by
  have hlong : ethHlen + ip6Hlen ≤ s.skb.headlen := le_trans (by decide) hhead
  have hlen : ethHlen + ip6Hlen ≤ data.length := by
    rw [← hs.data]
    exact le_trans hlong s.skb.headlen_le
  rw [ingressClassify]
  refine Refines.exec_step (exec_get s) ?_
  rw [hs.data]
  rw [if_neg (not_lt.mpr hlong)]
  by_cases hver : (Ipv6hdr.load data ethHlen).version ≠ 6
  · rw [if_pos hver]
    exact refines_pass hs fun _ => if_neg fun h => hver h.2.2.1
  rw [if_neg hver]
  by_cases hdst : ¬ addr6Eq (Ipv6hdr.load data ethHlen).daddr c.podIp6 = true
  · rw [if_pos hdst]
    exact refines_pass hs fun _ => if_neg fun h => hdst (addr6Eq_iff.mpr h.2.2.2.1)
  rw [if_neg hdst]
  have hdst' := addr6Eq_iff.mp (not_not.mp hdst)
  cases hsrc : inPrefix c (Ipv6hdr.load data ethHlen).saddr with
  | true =>
    have hret : ReturnTraffic c data := ⟨het, hlen, not_not.mp hver, hdst', Or.inl hsrc⟩
    rw [if_pos rfl, if_pos hret]
    exact Refines.pure ⟨rfl, hs, hhead⟩
  | false =>
    rw [if_neg Bool.false_ne_true]
    have hiff : ReturnTraffic c data ↔ QuotesPod c data := by
      constructor
      · intro h
        exact h.2.2.2.2.resolve_left (by rw [hsrc]; exact Bool.false_ne_true)
      · intro h
        exact ⟨het, hlen, not_not.mp hver, hdst', Or.inr h⟩
    have hrouter := refines_ingressRouterError (c := c) hk hs fun hrel => hlin hrel hsrc
    by_cases hq : QuotesPod c data
    · rw [if_pos hq] at hrouter
      rw [if_pos (hiff.mpr hq)]
      exact hrouter.step fun _ s₁ h₁ => Refines.pure ⟨rfl, h₁⟩
    · rw [if_neg hq] at hrouter
      rw [if_neg (hiff.not.mpr hq)]
      exact hrouter.bind_error

include hk in
/-- **The classification.**  A frame that goes on is return traffic of at least 62 bytes, whatever
the helpers do; any other frame passes as it was. -/
theorem refines_ingressMatch (hs : At r proto data s)
    (hlin₁ : reliable → ethHlen + ip6Hlen + fragHlen ≤ data.length →
      Linearises k (ethHlen + ip6Hlen + fragHlen) s)
    (hlin₂ : reliable → inPrefix c (Ipv6hdr.load data ethHlen).saddr = false → ∀ s',
      At r proto data s' → ethHlen + ip6Hlen + 8 + ip6Hlen ≤ data.length →
      Linearises k (ethHlen + ip6Hlen + 8 + ip6Hlen) s') :
    Refines (passStop r proto data) reliable (ingressMatch k c)
      (if ethHlen + ip6Hlen + fragHlen ≤ data.length ∧ ReturnTraffic c data then
        .ok ((Ipv6hdr.load data ethHlen).saddr, (Ipv6hdr.load data ethHlen).daddr,
          inPrefix c (Ipv6hdr.load data ethHlen).saddr)
      else .error ())
      (fun a b s' => a = b ∧ At r proto data s' ∧
        ethHlen + ip6Hlen + fragHlen ≤ s'.skb.headlen) s := by
  have hmac := ethHlen_le_headlen s.skb
  rw [hs.data] at hmac
  rw [ingressMatch]
  refine Refines.exec_step (exec_get s) ?_
  rw [hs.data]
  by_cases hshort : ethHlen > s.skb.headlen
  · rw [if_pos hshort]
    refine refines_pass hs fun _ => if_neg fun h => ?_
    exact absurd (hmac.mpr (le_trans (by decide) h.1)) (not_le.mpr hshort)
  rw [if_neg hshort]
  by_cases het : load16 data 12 ≠ bpfHtons ethPIpv6
  · rw [if_pos het]
    exact refines_pass hs fun _ => if_neg fun h => het h.2.1
  rw [if_neg het]
  obtain ⟨b, s₁, hexec, hs₁, hhead, hiff⟩ := hs.ensureLinear hk (ethHlen + ip6Hlen + fragHlen)
  refine Refines.exec_step hexec ?_
  cases b with
  | false =>
    refine refines_pass hs₁ fun hrel => if_neg fun h => ?_
    exact absurd (hiff.mpr (hlin₁ hrel h.1)) Bool.false_ne_true
  | true =>
    have hhead₁ := hhead rfl
    have hlen : ethHlen + ip6Hlen + fragHlen ≤ data.length := by
      rw [← hs₁.data]
      exact le_trans hhead₁ s₁.skb.headlen_le
    have hclass := refines_ingressClassify hk hs₁ hhead₁ (not_not.mp het) hlin₂
    rwa [if_congr (and_iff_right hlen) rfl rfl]

end Match

/-! ## The outer headers -/

/-- With the first 62 bytes linear, how much more is linear does not matter. -/
theorem ingressHeader_headlen {data : List UInt8} {n : ℕ} (sa da : In6Addr) (mapped : Bool)
    (hn : ethHlen + ip6Hlen + fragHlen ≤ n) (hlen : ethHlen + ip6Hlen + fragHlen ≤ data.length) :
    ingressHeader data n sa da mapped = ingressHeader data data.length sa da mapped := by
  rw [ingressHeader, ingressHeader, ingressFragment, ingressFragment, if_neg (not_lt.mpr hn),
    if_neg (not_lt.mpr hlen)]

/-- The header checks drop with counters of the ingress program. -/
theorem ingressHeader_error {data : List UInt8} {n : ℕ} {sa da : In6Addr} {mapped : Bool}
    {key : Counter} (h : ingressHeader data n sa da mapped = .error key) :
    key.isIngressDrop = true := by
  have hchecks : ∀ v, ingressChecks v = .error key → key.isIngressDrop = true := by
    intro v hv
    rw [ingressChecks] at hv
    split at hv
    · exact Except.error.inj hv ▸ rfl
    split at hv
    · exact Except.error.inj hv ▸ rfl
    · cases hv
  rw [ingressHeader, ingressFragment] at h
  split at h
  · split at h
    · exact Except.error.inj h ▸ rfl
    split at h
    · exact Except.error.inj h ▸ rfl
    · exact hchecks _ h
  · exact hchecks _ h

section Paragraphs

variable {r : Run} {reliable : Prop} {k : Kernel} (c : Constants) {s : State} {proto : UInt16}
  {data hd l : List UInt8} {off : ℕ} (hk : k.Lawful) (hr : reliable → k.Reliable)
  (hdrops : r.drops = Counter.isIngressDrop)

include hk hr hdrops in
/-- The Fragment header, if there is one, taken out.  A frame whose `skb->protocol` is not IPv6
may be cut in the wrong place here; `bpf_skb_change_proto` then refuses it. -/
theorem refines_shrinkFragment (v : IngressVars) (hs : At r proto data s)
    (hlen : ethHlen + ip6Hlen + fragHlen ≤ data.length)
    (hp : reliable → proto = bpfHtons ethPIpv6) {α : Type} {f : Unit → Clat α} {β : Type}
    {e : Except Counter β} {R : α → β → State → Prop}
    (hf : ∀ (data' : List UInt8) (s' : State), At r proto data' s' →
      (proto = bpfHtons ethPIpv6 → data' = data.take (ethHlen + ip6Hlen) ++ v.l4 data) →
      Refines r.stop reliable (f ()) e R s') :
    Refines r.stop reliable
      (if v.isFrag then
        orDrop (bpfSkbAdjustRoom k (-(fragHlen : ℤ)) .net roomFlags) .ingressDropHelper >>= f
      else f ()) e R s := by
  rw [IngressVars.l4] at hf
  by_cases hfrag : v.isFrag
  · rw [if_pos hfrag]
    rw [if_pos hfrag] at hf
    have hrule := hs.shrinkRoom hk hr (congrFun hdrops .ingressDropHelper) (by decide)
      netBaseLen_ipv6 hp (fun _ => by decide) (fun _ => hlen)
    rw [if_pos hlen] at hrule
    refine hrule.step fun _ s₁ h₁ => ?_
    obtain ⟨data', hs₁, hdata'⟩ := h₁
    exact hf data' s₁ hs₁ hdata'
  · rw [if_neg hfrag]
    rw [if_neg hfrag] at hf
    refine hf data s hs fun _ => ?_
    rw [Nat.add_zero, List.take_append_drop]

include hk hr hdrops in
/-- The reshape as a whole: MAC addresses, EtherType, IPv4 header, then what followed the IPv6
headers. -/
theorem refines_ingressReshape (v : IngressVars) (hs : At r proto data s)
    (hlen : ethHlen + ip6Hlen + fragHlen ≤ data.length)
    (hp : reliable → proto = bpfHtons ethPIpv6) :
    Refines r.stop reliable (ingressReshape k c v) (.ok ())
      (fun _ _ s' => At r (bpfHtons ethPIp)
        (ingressHeaders k c v data v.totLen ++ v.l4 data) s') s := by
  have hlen' : 62 ≤ data.length := hlen
  have hm : (data.take 12).length = 12 := by
    rw [List.length_take]
    omega
  have ht : (slice data 12 2).length = 2 := length_slice (by omega)
  have ha : (slice data 14 20).length = ip6Hlen - ip4Hlen := length_slice (by omega)
  have hb : (slice data 34 20).length = 20 := length_slice (by omega)
  have hmt : (data.take 12 ++ slice data 12 2).length = ethHlen := by
    rw [List.length_append, hm, ht]
  have hsplit : data.take (ethHlen + ip6Hlen) =
      data.take 12 ++ slice data 12 2 ++ (slice data 14 20 ++ slice data 34 20) := by
    show data.take 54 = _
    rw [← slice_zero data 54, slice_add data 0 12 42, slice_add data (0 + 12) 2 40,
      slice_add data (0 + 12 + 2) 20 20, slice_zero, List.append_assoc]
  unfold ingressReshape
  refine refines_shrinkFragment hk hr hdrops v hs hlen hp fun data' s₁ hs₁ hdata' => ?_
  have hlong : reliable → ethHlen + ip6Hlen ≤ data'.length := by
    intro hrel
    rw [hdata' (hp hrel), List.length_append, List.length_take]
    show 54 ≤ min 54 data.length + _
    omega
  refine (hs₁.changeProto4 hk hr (congrFun hdrops _) hp hlong).step fun _ s₂ h₂ => ?_
  obtain ⟨hproto, hs₂⟩ := h₂
  rw [hdata' hproto, hsplit, List.append_assoc, List.append_assoc (slice data 14 20),
    cut_append hmt ha] at hs₂
  refine (hs₂.overwrite hk hr hmt (hb.trans (Iphdr.length_bytes _).symm) (congrFun hdrops _)
    (Or.inl ⟨rfl, le_refl _, by decide⟩)).step fun _ s₃ hs₃ => ?_
  rw [ingressHeaders]
  simp only [List.append_assoc] at hs₃ ⊢
  exact hs₃.overwrite hk hr hm (ht.trans (length_le16Bytes _).symm) (congrFun hdrops _)
    (Or.inr ⟨rfl, le_refl _⟩)

/-! ## TCP, UDP and echo -/

include hk hr hdrops in
/-- The update of a transport checksum that is not a protected null checksum. -/
theorem refines_ingressCsum (hs : At r proto (hd ++ l) s) (hhd : hd.length = ingressL4off)
    {i : ℕ} (hi : i % 2 = 0) (hmax : i ≤ 16) (diff : UInt32) (flags : CsumFlags)
    (hp : flags.pseudoHdr = true)
    (hz : ¬ (flags.markMangled0 ∧ ¬ flags.markEnforce ∧ load16 l i = 0)) :
    Refines r.stop reliable (orDrop (bpfL4CsumReplace k (ingressL4off + i) 0 diff flags)
        .ingressDropHelper)
      (csumAt .ingressDropHelper r.ipSummed flags diff i l)
      (fun _ out s' => At r proto (hd ++ out) s') s :=
  hs.csumTail hk hr hhd (congrFun hdrops _) (by decide) (show (34 + i) % 2 = 0 by omega)
    (show 34 + i ≤ 65535 by omega) hp fun _ => hz

include hk hr hdrops in
theorem refines_ingressUdp (v : IngressVars) (hs : At r proto (hd ++ l) s)
    (hhd : hd.length = ingressL4off) :
    Refines r.stop reliable (ingressUdp k c v) (ingressUdpBytes k c r.ipSummed v l)
      (fun _ out s' => At r proto (hd ++ out) s') s := by
  refine hs.loadTail hk hr hhd (congrFun hdrops .ingressDropTruncated) rfl fun hin s₁ hs₁ => ?_
  refine Refines.ite (fun _ => ?_) fun hnz => ?_
  · exact refines_drop hs₁.counters (congrFun hdrops .ingressDropUdpZeroCsum)
  · rw [load16_slice (le_refl 2)] at hnz
    exact refines_ingressCsum hk hr hdrops hs₁ hhd (by decide) (by decide) _ _ rfl
      fun h => hnz h.2.2

include hk hr hdrops in
theorem refines_ingressEcho (v : IngressVars) (t6 code : UInt8) (hs : At r proto (hd ++ l) s)
    (hhd : hd.length = ingressL4off) :
    Refines r.stop reliable (ingressEcho k v t6 code)
      (ingressEchoBytes k r.ipSummed v t6 code l)
      (fun _ out s' => At r proto (hd ++ out) s') s := by
  refine (hs.storeTail (i := 0) hk hr hhd (congrFun hdrops .ingressDropHelper) _
    (by decide) (by decide)).bind fun _ out s₁ hs₁ => ?_
  exact refines_ingressCsum hk hr hdrops hs₁ hhd (by decide) (by decide) _ _ rfl
    fun h => Bool.false_ne_true h.1

/-! ## ICMPv6 errors -/

include hk hr hdrops in
theorem refines_ingressQuoteFragment (in6 : Ipv6hdr) (hs : At r proto (hd ++ l) s)
    (hhd : hd.length = ingressL4off) :
    Refines r.stop reliable (ingressQuoteFragment k in6) (quoteFragmentBytes in6 l)
      (fun a b s' => a = b ∧ At r proto (hd ++ l) s') s := by
  refine Refines.ite (fun _ => ?_) fun _ => Refines.pure ⟨rfl, hs⟩
  exact hs.loadTail hk hr hhd (congrFun hdrops .ingressDropIcmpInner) rfl
    fun _ s₁ hs₁ => Refines.pure ⟨rfl, hs₁⟩

include hk hr hdrops in
/-- The quoted headers, read and checked. -/
theorem refines_ingressQuote (hs : At r proto (hd ++ l) s) (hhd : hd.length = ingressL4off) :
    Refines r.stop reliable (ingressQuote k c) (quoteBytes c l)
      (fun a b s' => a = b ∧ At r proto (hd ++ l) s') s := by
  refine hs.loadTail hk hr hhd (congrFun hdrops .ingressDropIcmpInner) rfl fun _ s₁ hs₁ => ?_
  by_cases hpod : FromPod c (Ipv6hdr.load (slice l 8 ip6Hlen) 0)
  · rw [if_pos hpod]
    show Refines r.stop reliable (if _ then _ else _) _ _ _
    rw [if_neg fun h => not_fromPod_iff.mp h hpod]
    refine (refines_ingressQuoteFragment hk hr hdrops _ hs₁ hhd).bind fun q q' s₂ h₂ => ?_
    obtain ⟨rfl, hs₂⟩ := h₂
    exact Refines.ite (fun _ => refines_drop hs₂.counters (congrFun hdrops .ingressDropIcmpInner))
      fun _ => Refines.pure ⟨rfl, hs₂⟩
  · rw [if_neg hpod]
    show Refines r.stop reliable (if _ then _ else _) _ _ _
    rw [if_pos (not_fromPod_iff.mpr hpod)]
    exact refines_drop hs₁.counters (congrFun hdrops .ingressDropIcmpInner)

include hk hr hdrops in
/-- The quoted echo. -/
theorem refines_ingressInnerEcho (q : Quote) (d : UInt32) (hs : At r proto (hd ++ l) s)
    (hhd : hd.length = innerL4off) :
    Refines r.stop reliable (ingressInnerEcho k q d) (innerEchoBytes k q d l)
      (fun a b s' => a = b.2 ∧ At r proto (hd ++ b.1) s') s := by
  refine hs.loadTail (i := 0) hk hr hhd (congrFun hdrops .ingressDropIcmpInner) rfl
    fun _ s₁ hs₁ => ?_
  refine Refines.ite (fun _ => ?_) fun _ => Refines.pure ⟨rfl, hs₁⟩
  refine hs₁.loadTail hk hr hhd (congrFun hdrops .ingressDropIcmpInner) rfl fun _ s₂ hs₂ => ?_
  refine (hs₂.storeTail (i := 0) hk hr hhd (congrFun hdrops .ingressDropHelper) _
    (by decide) (by decide)).bind fun _ out s₃ hs₃ => ?_
  refine (hs₃.storeTail (i := 2) hk hr hhd (congrFun hdrops .ingressDropHelper) _
    (by decide) (by decide)).bind fun _ out s₄ hs₄ => ?_
  exact Refines.pure ⟨rfl, hs₄⟩

include hk hr hdrops in
theorem refines_ingressInnerIcmp (q : Quote) (d : UInt32) (hs : At r proto (hd ++ l) s)
    (hhd : hd.length = innerL4off) :
    Refines r.stop reliable (ingressInnerIcmp k q d) (innerIcmpBytes k q d l)
      (fun a b s' => a = b.2 ∧ At r proto (hd ++ b.1) s') s :=
  Refines.ite (fun _ => refines_ingressInnerEcho hk hr hdrops q d hs hhd)
    fun _ => Refines.pure ⟨rfl, hs⟩

theorem innerCoff_even (nh : UInt8) : innerCoff nh % 2 = 0 := by
  rw [innerCoff]
  split
  · rfl
  split <;> rfl

include hk hr hdrops in
/-- The quoted TCP or UDP checksum.  The load may fail without a drop; a reliable kernel fails
it only when the quote is too short. -/
theorem refines_ingressInnerCsum (q : Quote) (d : UInt32) (hs : At r proto (hd ++ l) s)
    (hhd : hd.length = innerL4off) :
    Refines r.stop reliable (ingressInnerCsum k c q d) (.ok ())
      (fun a (_ : Unit) s' => ∃ present : Bool, (reliable → present = true) ∧
        a = (innerCsumBytes k c q d l present).2 ∧
        At r proto (hd ++ (innerCsumBytes k c q d l present).1) s') s := by
  have heven := innerCoff_even q.inNh
  rw [ingressInnerCsum]
  by_cases hcoff : innerCoff q.inNh ≠ 0 ∧ q.inFrag4 &&& ipOffset = 0
  swap
  · rw [if_neg hcoff]
    refine Refines.pure ⟨true, fun _ => rfl, ?_⟩
    rw [innerCsumBytes, if_neg fun h => hcoff h.1]
    exact ⟨rfl, hs⟩
  rw [if_pos hcoff]
  refine hs.loadOption hk hr hhd (fun hin s₁ hs₁ => ?_) fun hout s₁ hs₁ => ?_
  · show Refines r.stop reliable (if load16 (slice l _ 2) 0 ≠ 0 then _ else _) _ _ _
    rw [load16_slice (le_refl 2), Nat.add_zero]
    by_cases hoc : load16 l (innerCoff q.inNh) ≠ 0
    · rw [if_pos hoc]
      have hstore := hs₁.storeTail hk hr hhd (i := innerCoff q.inNh)
        (congrFun hdrops .ingressDropHelper)
        (le16Bytes (innerNc (innerAddrDiff k c q) (load16 l (innerCoff q.inNh)))) (by decide)
        (show (62 + innerCoff q.inNh) % 2 = 0 by omega)
      rw [storeAt, length_le16Bytes, if_pos hin] at hstore
      refine hstore.step fun _ s₂ hs₂ => Refines.pure ⟨true, fun _ => rfl, ?_⟩
      rw [innerCsumBytes, if_pos ⟨hcoff, ⟨rfl, hin⟩, hoc⟩]
      exact ⟨rfl, hs₂⟩
    · rw [if_neg hoc]
      refine Refines.pure ⟨true, fun _ => rfl, ?_⟩
      rw [innerCsumBytes, if_neg fun h => hoc h.2.2]
      exact ⟨rfl, hs₁⟩
  · -- the load failed: the quote is too short, or the helper was not reliable
    by_cases hin : innerCoff q.inNh + 2 ≤ l.length
    · refine Refines.pure ⟨false, fun hrel => absurd hin (hout hrel), ?_⟩
      rw [innerCsumBytes, if_neg fun h => Bool.false_ne_true h.2.1.1]
      exact ⟨rfl, hs₁⟩
    · refine Refines.pure ⟨true, fun _ => rfl, ?_⟩
      rw [innerCsumBytes, if_neg fun h => hin h.2.1.2]
      exact ⟨rfl, hs₁⟩

/-! ### The error as a whole -/

theorem Quote.length_newBytes (q : Quote) (hdr : List UInt8) :
    (q.newBytes k c hdr).length = 28 := by
  rw [Quote.newBytes, List.length_append, Icmphdr.length_bytes, Iphdr.length_bytes]

include hk hr hdrops in
/-- The shrink and the two header writes of an ICMPv6 error: the new headers take the place of the
old ones, and the outer header gets its final length. -/
theorem refines_errorReshape (v : IngressVars) (q : Quote) (hdr : List UInt8)
    (hlen : 12 ≤ data.length) (hq : q.shrink + 28 ≤ l.length)
    (hs : At r (bpfHtons ethPIp) (ingressHeaders k c v data v.totLen ++ l) s) {α β : Type}
    {f : Clat α} {e : Except Counter β} {R : α → β → State → Prop}
    (hf : ∀ s', At r (bpfHtons ethPIp)
        (ingressHeaders k c v data (v.totLen - UInt16.ofNat q.shrink) ++
          (q.newBytes k c hdr ++ l.drop (q.shrink + 28))) s' →
      Refines r.stop reliable f e R s') :
    Refines r.stop reliable (do
      orDrop (bpfSkbAdjustRoom k (-(q.shrink : ℤ)) .net roomFlags) .ingressDropHelper
      orDrop (bpfSkbStoreBytes k ingressL4off (q.newBytes k c hdr) storeFlags) .ingressDropHelper
      orDrop (bpfSkbStoreBytes k ethHlen (v.h4 k c (v.totLen - UInt16.ofNat q.shrink)).bytes
        storeFlags) .ingressDropHelper
      f) e R s := by
  have hhd : ∀ n, (ingressHeaders k c v data n).length = ingressL4off :=
    fun n => length_ingressHeaders hlen
  have hroom : ethHlen + ip4Hlen + q.shrink ≤ (ingressHeaders k c v data v.totLen ++ l).length := by
    rw [List.length_append, hhd]
    show 34 + q.shrink ≤ 34 + l.length
    omega
  have hshrink := q.shrink_eq
  refine (hs.shrinkRoom4 hk hr (congrFun hdrops _) (by omega) (fun _ => by omega)
    hroom).step fun _ s₁ hs₁ => ?_
  have hl : l = l.take q.shrink ++ (slice l q.shrink 28 ++ l.drop (q.shrink + 28)) :=
    (take_append_slice_append_drop l q.shrink 28).symm
  have htake : (l.take q.shrink).length = q.shrink := by
    rw [List.length_take]
    omega
  have hold : (slice l q.shrink 28).length = (q.newBytes k c hdr).length := by
    rw [length_slice hq, Quote.length_newBytes]
  rw [hl, cut_append (hhd _) htake] at hs₁
  refine (hs₁.overwrite hk hr (hhd _) hold (congrFun hdrops _)
    (Or.inl ⟨rfl, by decide, by decide⟩)).step fun _ s₂ hs₂ => ?_
  have hmac := length_macHeader (show 12 ≤ data.length by omega) (bpfHtons ethPIp)
  have hheaders : ∀ n, ingressHeaders k c v data n =
      data.take 12 ++ le16Bytes (bpfHtons ethPIp) ++ (v.h4 k c n).bytes :=
    fun n => (List.append_assoc _ _ _).symm
  rw [hheaders, List.append_assoc] at hs₂
  have hh4 : (v.h4 k c v.totLen).bytes.length =
      (v.h4 k c (v.totLen - UInt16.ofNat q.shrink)).bytes.length :=
    (Iphdr.length_bytes _).trans (Iphdr.length_bytes _).symm
  refine (hs₂.overwrite hk hr hmac hh4 (congrFun hdrops _)
    (Or.inl ⟨rfl, le_refl _, by decide⟩)).step fun _ s₃ hs₃ => hf s₃ ?_
  rw [hheaders, List.append_assoc]
  exact hs₃

include hk hr hdrops in
theorem refines_ingressError (v : IngressVars) (hdr : List UInt8) (hlen : 12 ≤ data.length)
    (hs : At r (bpfHtons ethPIp) (ingressHeaders k c v data v.totLen ++ l) s) :
    Refines r.stop reliable (ingressError k c v hdr) (ingressErrorBytes k c r.ipSummed v hdr l)
      (fun _ out s' => ∃ present : Bool, (reliable → present = true) ∧
        At r (bpfHtons ethPIp)
          (ingressHeaders k c v data (out present).1 ++ (out present).2) s') s := by
  have hhd : ∀ n, (ingressHeaders k c v data n).length = ingressL4off :=
    fun n => length_ingressHeaders hlen
  refine Refines.ite (fun _ => refines_drop hs.counters
    (congrFun hdrops .ingressDropIcmpUnsupported)) fun _ => ?_
  refine (refines_ingressQuote c hk hr hdrops hs (hhd _)).known.bind fun q q' s₁ h₁ => ?_
  obtain ⟨hq, rfl, hs₁⟩ := h₁
  have hqlen := quoteBytes_length hq
  refine refines_errorReshape c hk hr hdrops v q hdr hlen hqlen hs₁ fun s₂ hs₂ => ?_
  -- from here on the packet is read behind the new embedded header
  have hinner : (ingressHeaders k c v data (v.totLen - UInt16.ofNat q.shrink) ++
      q.newBytes k c hdr).length = innerL4off := by
    rw [List.length_append, hhd, Quote.length_newBytes]
  rw [← List.append_assoc] at hs₂
  refine (refines_ingressInnerIcmp hk hr hdrops q _ hs₂ hinner).bind fun d x s₃ h₃ => ?_
  obtain ⟨rfl, hs₃⟩ := h₃
  refine (refines_ingressInnerCsum c hk hr hdrops q x.2 hs₃ hinner).step fun d s₄ h₄ => ?_
  obtain ⟨present, hpresent, rfl, hs₄⟩ := h₄
  rw [List.append_assoc] at hs₄
  have hcsum := refines_ingressCsum (i := 2) hk hr hdrops hs₄ (hhd _) (by decide) (by decide)
    (innerCsumBytes k c q x.2 x.1 present).2 pseudoHdr rfl
    fun h => Bool.false_ne_true h.1
  have hin : 2 + 2 ≤ (q.newBytes k c hdr ++ (innerCsumBytes k c q x.2 x.1 present).1).length := by
    rw [List.length_append, Quote.length_newBytes]
    omega
  rw [csumAt, if_pos hin] at hcsum
  exact hcsum.value fun _ s₅ hs₅ => ⟨present, hpresent, hs₅⟩

include hk hr hdrops in
theorem refines_ingressIcmp (v : IngressVars) (hlen : 12 ≤ data.length)
    (hs : At r (bpfHtons ethPIp) (ingressHeaders k c v data v.totLen ++ l) s) :
    Refines r.stop reliable (ingressIcmp k c v) (ingressIcmpBytes k c r.ipSummed v l)
      (fun _ out s' => ∃ present : Bool, (reliable → present = true) ∧
        At r (bpfHtons ethPIp)
          (ingressHeaders k c v data (out present).1 ++ (out present).2) s') s := by
  have hhd : (ingressHeaders k c v data v.totLen).length = ingressL4off :=
    length_ingressHeaders hlen
  refine hs.loadTail (i := 0) hk hr hhd (congrFun hdrops .ingressDropTruncated) rfl
    fun _ s₁ hs₁ => ?_
  refine Refines.ite (fun _ => ?_) fun _ => refines_ingressError c hk hr hdrops v _ hlen hs₁
  exact (refines_ingressEcho hk hr hdrops v _ _ hs₁ hhd).map
    fun _ _ _ hs₂ => ⟨true, fun _ => rfl, hs₂⟩

include hk hr hdrops in
theorem refines_ingressL4 (v : IngressVars) (hlen : 12 ≤ data.length)
    (hs : At r (bpfHtons ethPIp) (ingressHeaders k c v data v.totLen ++ l) s) :
    Refines r.stop reliable (ingressL4 k c v) (ingressL4Bytes k c r.ipSummed v l)
      (fun _ out s' => ∃ present : Bool, (reliable → present = true) ∧
        At r (bpfHtons ethPIp)
          (ingressHeaders k c v data (out present).1 ++ (out present).2) s') s := by
  have hhd : (ingressHeaders k c v data v.totLen).length = ingressL4off :=
    length_ingressHeaders hlen
  refine Refines.ite (fun _ => ?_) fun _ => Refines.ite (fun _ => ?_) fun _ =>
    Refines.ite (fun _ => refines_ingressIcmp c hk hr hdrops v hlen hs) fun _ => ?_
  · exact (refines_ingressCsum hk hr hdrops hs hhd (by decide) (by decide) _ _ rfl
      fun h => Bool.false_ne_true h.1).map fun _ _ _ hs₁ => ⟨true, fun _ => rfl, hs₁⟩
  · exact (refines_ingressUdp c hk hr hdrops v hs hhd).map
      fun _ _ _ hs₁ => ⟨true, fun _ => rfl, hs₁⟩
  · exact Refines.pure ⟨true, fun _ => rfl, hs⟩

/-! ## The program -/

include hk hr hdrops in
/-- **Everything behind the classification follows the ingress translation.** -/
theorem refines_ingressTranslate (hs : At r proto data s)
    (hhead : ethHlen + ip6Hlen + fragHlen ≤ s.skb.headlen)
    (hp : reliable → proto = bpfHtons ethPIpv6) :
    Refines r.stop reliable
      (ingressTranslate k c (Ipv6hdr.load data ethHlen).saddr (Ipv6hdr.load data ethHlen).daddr
        (inPrefix c (Ipv6hdr.load data ethHlen).saddr))
      (ingressFrame k c r.ipSummed data)
      (fun _ out s' => ∃ present : Bool, (reliable → present = true) ∧
        At r (bpfHtons ethPIp) (out present) s') s := by
  have hlen : ethHlen + ip6Hlen + fragHlen ≤ data.length := by
    rw [← hs.data]
    exact le_trans hhead s.skb.headlen_le
  have hmac : 12 ≤ data.length := le_trans (by decide) hlen
  rw [ingressFrame, ingressVars, ingressTranslate]
  refine Refines.exec_step (exec_get s) ?_
  rw [hs.data, ingressHeader_headlen _ _ _ hhead hlen]
  refine (refines_orDropWith hs.counters fun key hkey =>
    (congrFun hdrops key).trans (ingressHeader_error hkey)).bind fun v v' s₁ h₁ => ?_
  obtain ⟨rfl, rfl⟩ := h₁
  refine (refines_ingressReshape c hk hr hdrops v hs hlen hp).step fun _ s₂ hs₂ => ?_
  have hpayload : Refines r.stop reliable (if v.first then ingressL4 k c v else pure ())
      (ingressPayload k c r.ipSummed v (v.l4 data))
      (fun _ out s' => ∃ present : Bool, (reliable → present = true) ∧ At r (bpfHtons ethPIp)
        (ingressHeaders k c v data (out present).1 ++ (out present).2) s') s₂ := by
    rw [ingressPayload]
    exact Refines.ite (fun _ => refines_ingressL4 c hk hr hdrops v hmac hs₂)
      fun _ => Refines.pure ⟨true, fun _ => rfl, hs₂⟩
  refine Refines.map hpayload ?_
  rintro _ out s₃ ⟨present, hpresent, hs₃⟩
  exact ⟨present, hpresent, hs₃⟩

end Paragraphs

/-! ## The program -/

variable {k : Kernel} {c : Constants} {s : State}

/-- The run that starts in the state `s`, with the bookkeeping of `skb->csum` followed where it is
right at the start. -/
def ingressRun (s : State) : Run :=
  ⟨s.counters, s.skb.ipSummed, Counter.isIngressDrop,
    (s.skb.csum.toNat : ZMod 65535) = s.skb.netSum⟩

theorem at_ingressRun (s : State) : At (ingressRun s) s.skb.protocol s.skb.data s :=
  ⟨rfl, rfl, rfl, rfl, fun hb _ => hb⟩

/-- A run over return traffic: the frame the ingress translation computes, or a drop, and without
faults the drop the translation calls for. -/
def FollowsIngress (k : Kernel) (c : Constants) (s : State) (res : TcAct × State) : Prop :=
  (∃ out, ingressFrame k c s.skb.ipSummed s.skb.data = .ok out ∧
    ∃ present, (NoFault k s ethPIpv6 → present = true) ∧
      Translated s .ingressTranslated (bpfHtons ethPIp) (out present) res ∧
      (s.skb.ipSummed = .checksumComplete → (s.skb.csum.toNat : ZMod 65535) = s.skb.netSum →
        (res.2.skb.csum.toNat : ZMod 65535) = res.2.skb.netSum)) ∨
  ∃ key : Counter, key.isIngressDrop = true ∧ Dropped s key res ∧
    (NoFault k s ethPIpv6 → ingressFrame k c s.skb.ipSummed s.skb.data = .error key)

/-- What follows a successful classification. -/
theorem clatIngress_of_match (hk : k.Lawful) {s₁ : State}
    (h : exec (ingressMatch k c) s =
      (.ok ((Ipv6hdr.load s.skb.data ethHlen).saddr, (Ipv6hdr.load s.skb.data ethHlen).daddr,
        inPrefix c (Ipv6hdr.load s.skb.data ethHlen).saddr), s₁))
    (hs₁ : At (ingressRun s) s.skb.protocol s.skb.data s₁)
    (hhead : ethHlen + ip6Hlen + fragHlen ≤ s₁.skb.headlen) :
    FollowsIngress k c s (clatIngress k c s) := by
  have hrun := refines_ingressTranslate c hk (And.left : NoFault k s ethPIpv6 → k.Reliable) rfl
    hs₁ hhead And.right
  rw [Refines] at hrun
  rw [clatIngress, runProg, clatIngressProg, exec_bind_ok h]
  generalize ingressTranslate k c _ _ _ = prog at hrun ⊢
  rcases hexec : exec prog s₁ with ⟨v | u, s'⟩
  · rw [hexec] at hrun
    obtain ⟨key, ⟨hv, hkey, hcnt⟩, hrel⟩ := hrun
    rw [exec_bind_error hexec]
    exact Or.inr ⟨key, hkey, ⟨hv, hcnt⟩, hrel⟩
  · rw [hexec] at hrun
    obtain ⟨out, hout, present, hpresent, hat⟩ := hrun
    rw [exec_bind_ok hexec]
    refine Or.inl ⟨out, hout, present, hpresent, ⟨rfl, hat.data, hat.protocol, hat.ipSummed, ?_⟩,
      fun hst hcsum => hat.csum hcsum hst⟩
    show bump s'.counters _ = _
    rw [hat.counters]
    rfl

/-- **The runs of `clat_ingress`.**  A packet passes as it is, or it is return traffic of at least
62 bytes and the run follows the ingress translation.  A packet of that kind passes only when its
headers could not be made linear. -/
theorem clatIngress_cases (hk : k.Lawful) {reliable : Prop}
    (hlin₁ : reliable → ethHlen + ip6Hlen + fragHlen ≤ s.skb.data.length →
      Linearises k (ethHlen + ip6Hlen + fragHlen) s)
    (hlin₂ : reliable → inPrefix c (Ipv6hdr.load s.skb.data ethHlen).saddr = false → ∀ s',
      At (ingressRun s) s.skb.protocol s.skb.data s' →
      ethHlen + ip6Hlen + 8 + ip6Hlen ≤ s.skb.data.length →
      Linearises k (ethHlen + ip6Hlen + 8 + ip6Hlen) s') :
    Passed s (clatIngress k c s) ∧ (reliable →
      ¬ (ethHlen + ip6Hlen + fragHlen ≤ s.skb.data.length ∧ ReturnTraffic c s.skb.data)) ∨
    (ethHlen + ip6Hlen + fragHlen ≤ s.skb.data.length ∧ ReturnTraffic c s.skb.data) ∧
      FollowsIngress k c s (clatIngress k c s) := by
  have hmatch := refines_ingressMatch hk (at_ingressRun s) hlin₁ hlin₂
  rw [Refines] at hmatch
  rcases hexec : exec (ingressMatch k c) s with ⟨v | u, s₁⟩
  · rw [hexec] at hmatch
    obtain ⟨_, ⟨rfl, hs₁⟩, hrel⟩ := hmatch
    refine Or.inl ⟨?_, fun hr hmem => ?_⟩
    · rw [clatIngress, runProg, clatIngressProg, exec_bind_error hexec]
      exact ⟨rfl, hs₁.data, hs₁.protocol, hs₁.ipSummed, hs₁.counters⟩
    · have := hrel hr
      rw [if_pos hmem] at this
      cases this
  · rw [hexec] at hmatch
    obtain ⟨b, hb, rfl, hs₁, hhead⟩ := hmatch
    by_cases hmem : ethHlen + ip6Hlen + fragHlen ≤ s.skb.data.length ∧ ReturnTraffic c s.skb.data
    · rw [if_pos hmem] at hb
      cases hb
      exact Or.inr ⟨hmem, clatIngress_of_match hk hexec hs₁ hhead⟩
    · rw [if_neg hmem] at hb
      cases hb

end CiliumClat
