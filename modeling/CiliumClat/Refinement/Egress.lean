import CiliumClat.Refinement.Helpers
import CiliumClat.Translation.Egress

/-!
# `clat_egress` follows the egress translation

Whatever the helpers do, a run of `clat_egress` over an IPv4 frame either drops it, or leaves
exactly the frame `egressFrame` computes; and where no helper fails, the program drops a frame
only when `egressFrame` does, and with the same counter.  The statement for the whole program is
`clatEgress_cases`; it is assembled from one refinement for each paragraph of the source.
-/

namespace CiliumClat

open ByteList OnesComplement EarlyExit

section Paragraphs

variable {r : Run} {reliable : Prop} {k : Kernel} (c : Constants) {s : State} {proto : UInt16}
  {data hd l : List UInt8} {off : ℕ} (hk : k.Lawful) (hr : reliable → k.Reliable)
  (hdrops : r.drops = Counter.isEgressDrop) (hbal : ¬ r.balanced)

/-! ## Options -/

include hk hr in
/-- The option scanner.  A failing load counts as a source route, so without faults the answer is
that of the walk, and an answer `false` always is. -/
theorem refines_ip4HasSourceRouteLoop (hhd : hd.length = off) (optlen fuel : ℕ) :
    ∀ (i : ℕ) (s : State), At r proto (hd ++ l) s →
      Refines r.stop reliable (ip4HasSourceRouteLoop k off optlen fuel i)
        (.ok (sourceRouteWalk l optlen fuel i))
        (fun a b s' => (a = false → b = false) ∧ (reliable → a = b) ∧ At r proto (hd ++ l) s')
        s := by
  induction fuel with
  | zero =>
    intro i s hs
    exact Refines.pure ⟨fun h => h, fun _ => rfl, hs⟩
  | succ fuel ih =>
    intro i s hs
    rw [ip4HasSourceRouteLoop, sourceRouteWalk]
    by_cases hi : i ≥ optlen
    · rw [if_pos hi, if_pos hi]
      exact Refines.pure ⟨fun h => h, fun _ => rfl, hs⟩
    rw [if_neg hi, if_neg hi]
    refine hs.loadOption hk hr hhd (fun hin s₁ hs₁ => ?_) fun hout s₁ hs₁ => ?_
    · rw [if_pos hin]
      show Refines r.stop reliable (if load8 (slice l i 1) 0 = 0 then _ else _) _ _ _
      rw [load8_slice Nat.zero_lt_one, Nat.add_zero]
      -- the tests on the option type are the same on both sides
      by_cases h₀ : load8 l i = 0
      · rw [if_pos h₀, if_pos h₀]
        exact Refines.pure ⟨fun h => h, fun _ => rfl, hs₁⟩
      rw [if_neg h₀, if_neg h₀]
      by_cases h₁ : load8 l i = 1
      · rw [if_pos h₁, if_pos h₁]
        exact ih (i + 1) s₁ hs₁
      rw [if_neg h₁, if_neg h₁]
      by_cases h₂ : load8 l i = 131 ∨ load8 l i = 137
      · rw [if_pos h₂, if_pos h₂]
        exact Refines.pure ⟨fun h => h, fun _ => rfl, hs₁⟩
      rw [if_neg h₂, if_neg h₂]
      by_cases h₃ : i + 1 ≥ optlen
      · rw [if_pos h₃, if_pos h₃]
        exact Refines.pure ⟨fun h => h, fun _ => rfl, hs₁⟩
      rw [if_neg h₃, if_neg h₃]
      refine hs₁.loadOption hk hr hhd (i := i + 1) (fun hin₁ s₂ hs₂ => ?_) fun hout s₂ hs₂ => ?_
      · rw [if_pos hin₁]
        show Refines r.stop reliable (if load8 (slice l (i + 1) 1) 0 < 2 then _ else _) _ _ _
        rw [load8_slice Nat.zero_lt_one, Nat.add_zero]
        by_cases h₄ : load8 l (i + 1) < 2
        · rw [if_pos h₄, if_pos h₄]
          exact Refines.pure ⟨fun h => h, fun _ => rfl, hs₂⟩
        · rw [if_neg h₄, if_neg h₄]
          exact ih _ s₂ hs₂
      · exact Refines.pure ⟨fun h => absurd h (by simp),
          fun hrel => (if_neg (hout hrel)).symm, hs₂⟩
    · exact Refines.pure ⟨fun h => absurd h (by simp),
        fun hrel => (if_neg (hout hrel)).symm, hs₁⟩

include hk hr in
theorem refines_ip4HasSourceRoute (hs : At r proto (hd ++ l) s) (hhd : hd.length = off)
    (optlen : ℕ) :
    Refines r.stop reliable (ip4HasSourceRoute k off optlen) (.ok (hasSourceRoute l optlen))
      (fun a b s' => (a = false → b = false) ∧ (reliable → a = b) ∧ At r proto (hd ++ l) s')
      s := by
  rw [ip4HasSourceRoute, hasSourceRoute]
  by_cases hbad : optlen < 4 ∨ optlen > 40 ∨ optlen &&& 3 ≠ 0
  · rw [if_pos hbad, if_pos hbad]
    exact Refines.pure ⟨fun h => h, fun _ => rfl, hs⟩
  · rw [if_neg hbad, if_neg hbad]
    exact refines_ip4HasSourceRouteLoop hk hr hhd optlen 40 0 s hs

include hk hr hdrops hbal in
/-- Dropping source routes and stripping the other options.  A frame whose `skb->protocol` is not
IPv4 may be cut in the wrong place here; `bpf_skb_change_proto` then refuses it. -/
theorem refines_egressOptions (v : EgressVars) (hs : At r proto (hd ++ l) s)
    (hhd : hd.length = ethHlen + ip4Hlen) (hp : reliable → proto = bpfHtons ethPIp) :
    Refines r.stop reliable (egressOptions k v) (stripOptions (v.ihl - ip4Hlen) l)
      (fun _ out s' => ∃ data, At r proto data s' ∧
        (proto = bpfHtons ethPIp → data = hd ++ out)) s := by
  rw [egressOptions, stripOptions]
  by_cases hopt : v.ihl - ip4Hlen ≠ 0
  · rw [if_pos hopt, if_pos hopt]
    refine (refines_ip4HasSourceRoute hk hr hs hhd (v.ihl - ip4Hlen)).step fun a s₁ ha => ?_
    obtain ⟨hfalse, hrel, hs₁⟩ := ha
    cases a with
    | true =>
      refine Refines.of_error (exec_drop _ s₁) ⟨rfl, congrFun hdrops .egressDropSrcroute, ?_⟩
        fun h => ?_
      · rw [← hs₁.counters]
      · rw [if_pos (hrel h).symm]
    | false =>
      have hno : ¬ hasSourceRoute l (v.ihl - ip4Hlen) = true := by
        rw [hfalse rfl]
        exact Bool.false_ne_true
      rw [if_neg hno]
      have hlen : ethHlen + ip4Hlen + (v.ihl - ip4Hlen) ≤ (hd ++ l).length ↔
          v.ihl - ip4Hlen ≤ l.length := by
        rw [List.length_append, hhd]
        omega
      have hrule := hs₁.shrinkRoom hk hr (congrFun hdrops .egressDropHelper)
        (Nat.pos_of_ne_zero hopt) netBaseLen_ip hp (fun hb => absurd hb hbal) id
      by_cases hin : v.ihl - ip4Hlen ≤ l.length
      · rw [if_pos (hlen.mpr hin)] at hrule
        rw [if_pos hin]
        refine hrule.value fun _ s₂ hs₂ => ?_
        obtain ⟨data, hat, hdata⟩ := hs₂
        refine ⟨data, hat, fun hproto => ?_⟩
        have hcut : cut (hd ++ l) (ethHlen + ip4Hlen + 0) (v.ihl - ip4Hlen) = _ :=
          cut_append_add hhd l 0 _
        rw [hdata hproto, ← Nat.add_zero (ethHlen + ip4Hlen), hcut, cut, List.take_zero,
          List.nil_append, Nat.zero_add]
      · rw [if_neg (hlen.not.mpr hin)] at hrule
        rw [if_neg hin]
        exact hrule.value_error
  · rw [if_neg hopt, if_neg hopt]
    exact Refines.pure ⟨_, hs, fun _ => rfl⟩

/-! ## Reshaping -/

variable {m t h4 : List UInt8}

include hk hr hdrops hbal in
/-- Protocol change: room for twenty more bytes in front of the old header. -/
theorem refines_changeProto6 (hs : At r proto data s)
    (hdata : proto = bpfHtons ethPIp → data = m ++ (t ++ (h4 ++ l))) (hm : m.length = 12)
    (ht : t.length = 2) (hh4 : h4.length = 20) (hp : reliable → proto = bpfHtons ethPIp) :
    Refines r.stop reliable (orDrop (bpfSkbChangeProto k (bpfHtons ethPIpv6)) .egressDropHelper)
      (.ok ()) (fun _ _ s' => ∃ h6 : List UInt8, h6.length = 40 ∧
        At r (bpfHtons ethPIpv6) (m ++ (t ++ (h6 ++ l))) s') s := by
  have hlen : reliable → ethHlen + ip4Hlen ≤ data.length := by
    intro hrel
    rw [hdata (hp hrel)]
    simp only [List.length_append, hm, ht, hh4, ethHlen, ip4Hlen]
    omega
  refine (hs.changeProto6 hk hr (congrFun hdrops _) hp hlen hbal).value fun _ s' hs' => ?_
  obtain ⟨hproto, gap, hgap, hat⟩ := hs'
  have hmt : (m ++ t).length = ethHlen := by
    rw [List.length_append, hm, ht]
  rw [hdata hproto, ← List.append_assoc, widen_append hmt, List.append_assoc,
    ← List.append_assoc gap] at hat
  refine ⟨gap ++ h4, ?_, hat⟩
  rw [List.length_append, hgap, hh4]
  rfl

include hk hr hdrops hbal in
/-- Room for the Fragment header, if there is one. -/
theorem refines_growFragment (v : EgressVars) {h6 : List UInt8}
    (hs : At r (bpfHtons ethPIpv6) (m ++ (t ++ (h6 ++ l))) s) (hm : m.length = 12)
    (ht : t.length = 2) (hh6 : h6.length = 40) {α : Type} {f : Unit → Clat α}
    {β : Type} {e : Except Counter β} {R : α → β → State → Prop}
    (hf : ∀ (gap : List UInt8) (s' : State), gap.length = v.fragBytes.length →
      At r (bpfHtons ethPIpv6) (m ++ (t ++ (h6 ++ (gap ++ l)))) s' →
      Refines r.stop reliable (f ()) e R s') :
    Refines r.stop reliable
      (if v.isFrag then
        orDrop (bpfSkbAdjustRoom k (fragHlen : ℤ) .net roomFlags) .egressDropHelper >>= f
      else f ()) e R s := by
  have hhd : (m ++ (t ++ h6)).length = ethHlen + ip6Hlen := by
    rw [List.length_append, List.length_append, hm, ht, hh6]
    rfl
  rw [length_fragBytes] at hf
  by_cases hfrag : v.isFrag
  · rw [if_pos hfrag]
    rw [if_pos hfrag] at hf
    have hdata : m ++ (t ++ (h6 ++ l)) = (m ++ (t ++ h6)) ++ l := by
      simp only [List.append_assoc]
    rw [hdata] at hs
    have hlen : ethHlen + ip6Hlen ≤ ((m ++ (t ++ h6)) ++ l).length := by
      rw [List.length_append, hhd]
      exact Nat.le_add_right _ _
    refine (hs.growRoom6 hk hr (congrFun hdrops _) (by decide) hbal hlen).step fun _ s' hs' => ?_
    obtain ⟨gap, hgap, hat⟩ := hs'
    rw [widen_append hhd] at hat
    simp only [List.append_assoc] at hat
    exact hf gap s' hgap hat
  · rw [if_neg hfrag]
    rw [if_neg hfrag] at hf
    exact hf [] s rfl hs

include hk hr hdrops in
/-- The Fragment header, if there is one, written into the room made for it. -/
theorem refines_storeFragment (v : EgressVars) {gap : List UInt8}
    (hhd : hd.length = ethHlen + ip6Hlen) (hgap : gap.length = v.fragBytes.length)
    (hs : At r proto (hd ++ (gap ++ l)) s) {α : Type} {f : Unit → Clat α} {β : Type}
    {e : Except Counter β} {R : α → β → State → Prop}
    (hf : ∀ s' : State, At r proto (hd ++ (v.fragBytes ++ l)) s' →
      Refines r.stop reliable (f ()) e R s') :
    Refines r.stop reliable
      (if v.isFrag then
        orDrop (bpfSkbStoreBytes k (ethHlen + ip6Hlen) v.fh.bytes storeFlags)
          .egressDropHelper >>= f
      else f ()) e R s := by
  rw [EgressVars.fragBytes] at hf hgap
  by_cases hfrag : v.isFrag
  · rw [if_pos hfrag]
    rw [if_pos hfrag] at hf hgap
    refine (hs.overwrite hk hr hhd hgap (congrFun hdrops _) ?_).step fun _ s' hs' => hf s' hs'
    exact Or.inl ⟨rfl, by decide, by decide⟩
  · rw [if_neg hfrag]
    rw [if_neg hfrag] at hf hgap
    rw [List.length_eq_zero_iff.mp hgap] at hs
    exact hf s hs

include hk hr hdrops hbal in
/-- The reshape as a whole: MAC addresses, EtherType, IPv6 header and Fragment header, then what
followed the IPv4 header. -/
theorem refines_egressReshape (v : EgressVars) (hs : At r proto data s)
    (hdata : proto = bpfHtons ethPIp → data = m ++ (t ++ (h4 ++ l))) (hm : m.length = 12)
    (ht : t.length = 2) (hh4 : h4.length = 20) (hp : reliable → proto = bpfHtons ethPIp) :
    Refines r.stop reliable (egressReshape k c v) (.ok ())
      (fun _ _ s' => At r (bpfHtons ethPIpv6)
        (m ++ (le16Bytes (bpfHtons ethPIpv6) ++ ((v.h6 c).bytes ++ v.fragBytes)) ++ l) s') s := by
  refine (refines_changeProto6 hk hr hdrops hbal hs hdata hm ht hh4 hp).step fun _ s₁ h₁ => ?_
  obtain ⟨h6, hh6, hs₁⟩ := h₁
  refine refines_growFragment hk hr hdrops hbal v hs₁ hm ht hh6 fun gap s₂ hgap hs₂ => ?_
  have hmt : (m ++ t).length = ethHlen := by
    rw [List.length_append, hm, ht]
  rw [← List.append_assoc] at hs₂
  refine (hs₂.overwrite hk hr hmt (hh6.trans (v.h6 c).length_bytes.symm) (congrFun hdrops _)
    (Or.inl ⟨rfl, le_refl _, by decide⟩)).step fun _ s₃ hs₃ => ?_
  have hhd : (m ++ t ++ (v.h6 c).bytes).length = ethHlen + ip6Hlen := by
    rw [List.length_append, hmt, Ipv6hdr.length_bytes]
  rw [← List.append_assoc] at hs₃
  refine refines_storeFragment hk hr hdrops v hhd hgap hs₃ fun s₄ hs₄ => ?_
  simp only [List.append_assoc] at hs₄ ⊢
  exact hs₄.overwrite hk hr hm (ht.trans (length_le16Bytes _).symm) (congrFun hdrops _)
    (Or.inr ⟨rfl, le_refl _⟩)

/-! ## The full UDP checksum -/

include hk hr in
/-- The whole chunks.  A failing load ends the sum, so what the program returns is what the
function computes, or nothing. -/
theorem refines_udpFullCsumChunks (hhd : hd.length = off) (ulen rounds : ℕ) :
    ∀ (i : ℕ) (sum : UInt32) (s : State), At r proto (hd ++ l) s →
      Refines r.stop reliable (udpFullCsumChunks k off ulen rounds i sum)
        (.ok (fullCsumChunks k l ulen rounds i sum))
        (fun a b s' => (a ≠ none → a = b) ∧ (reliable → a = b) ∧ At r proto (hd ++ l) s') s := by
  induction rounds with
  | zero =>
    intro i sum s hs
    exact Refines.pure ⟨fun _ => rfl, fun _ => rfl, hs⟩
  | succ rounds ih =>
    intro i sum s hs
    rw [udpFullCsumChunks, fullCsumChunks]
    by_cases hend : i + csumChunk > ulen
    · rw [if_pos hend, if_pos hend]
      exact Refines.pure ⟨fun _ => rfl, fun _ => rfl, hs⟩
    rw [if_neg hend, if_neg hend]
    refine hs.loadOption hk hr hhd (fun hin s₁ hs₁ => ?_) fun hout s₁ hs₁ => ?_
    · rw [if_pos hin]
      exact ih _ _ s₁ hs₁
    · exact Refines.pure ⟨fun h => absurd rfl h, fun hrel => (if_neg (hout hrel)).symm, hs₁⟩

include hk hr in
theorem refines_udpFullCsumTail (hs : At r proto (hd ++ l) s) (hhd : hd.length = off)
    (ulen i : ℕ) (sum : UInt32) :
    Refines r.stop reliable (udpFullCsumTail k off ulen i sum)
      (.ok (fullCsumTail k l ulen i sum))
      (fun a b s' => (a ≠ none → a = b) ∧ (reliable → a = b) ∧ At r proto (hd ++ l) s') s := by
  rw [udpFullCsumTail, fullCsumTail]
  by_cases htail : csumTail ulen i ≠ 0
  · rw [if_pos htail, if_pos htail]
    refine hs.loadOption hk hr hhd (fun hin s₁ hs₁ => ?_) fun hout s₁ hs₁ => ?_
    · rw [if_pos hin]
      exact Refines.pure ⟨fun _ => rfl, fun _ => rfl, hs₁⟩
    · exact Refines.pure ⟨fun h => absurd rfl h, fun hrel => (if_neg (hout hrel)).symm, hs₁⟩
  · rw [if_neg htail, if_neg htail]
    exact Refines.pure ⟨fun _ => rfl, fun _ => rfl, hs⟩

include hk hr in
theorem refines_udpFullCsum (hs : At r proto (hd ++ l) s) (hhd : hd.length = off) (ulen : ℕ)
    (seed : UInt32) :
    Refines r.stop reliable (udpFullCsum k off ulen seed) (.ok (fullCsum k l ulen seed))
      (fun a b s' => (a ≠ none → a = b) ∧ (reliable → a = b) ∧ At r proto (hd ++ l) s') s := by
  rw [udpFullCsum, fullCsum]
  by_cases hbig : ulen > csumChunk * csumMaxChunks
  · rw [if_pos hbig, if_pos hbig]
    exact Refines.pure ⟨fun _ => rfl, fun _ => rfl, hs⟩
  rw [if_neg hbig, if_neg hbig]
  refine (refines_udpFullCsumChunks hk hr hhd ulen csumMaxChunks 0 seed s hs).step
    fun a s₁ ha => ?_
  obtain ⟨hsome, hrel, hs₁⟩ := ha
  cases a with
  | none =>
    refine Refines.pure ⟨fun h => absurd rfl h, fun h => ?_, hs₁⟩
    rw [← hrel h]
  | some x =>
    rw [← hsome (by simp)]
    exact refines_udpFullCsumTail hk hr hs₁ hhd ulen x.1 x.2

/-! ## The transport header -/

theorem EgressVars.l4off_cases (v : EgressVars) : v.l4off = 54 ∨ v.l4off = 62 := by
  rw [EgressVars.l4off]
  by_cases hfrag : v.isFrag
  · rw [if_pos hfrag]
    exact Or.inr rfl
  · rw [if_neg hfrag]
    exact Or.inl rfl

include hk hr hdrops hbal in
/-- The update of a transport checksum. -/
theorem refines_egressCsum (v : EgressVars) (hs : At r proto (hd ++ l) s)
    (hhd : hd.length = v.l4off) {i : ℕ} (hi : i % 2 = 0) (hmax : i ≤ 16) (diff : UInt32)
    {flags : CsumFlags} (hp : flags.pseudoHdr = true) :
    Refines r.stop reliable (orDrop (bpfL4CsumReplace k (v.l4off + i) 0 diff flags)
        .egressDropHelper)
      (csumAt .egressDropHelper r.ipSummed flags diff i l)
      (fun _ out s' => At r proto (hd ++ out) s') s := by
  have hoff := v.l4off_cases
  exact hs.csumTail hk hr hhd (congrFun hdrops _) (show 14 ≤ v.l4off by omega) (by omega)
    (by omega) hp fun hb => absurd hb hbal

include hk hr hdrops hbal in
theorem refines_egressUdp (v : EgressVars) (hs : At r proto (hd ++ l) s)
    (hhd : hd.length = v.l4off) :
    Refines r.stop reliable (egressUdp k c v) (egressUdpBytes k c r.ipSummed v l)
      (fun _ out s' => At r proto (hd ++ out) s') s := by
  have hoff := v.l4off_cases
  refine hs.loadTail hk hr hhd (congrFun hdrops .egressDropTruncated) rfl fun _ s₁ hs₁ => ?_
  refine Refines.ite (fun _ => ?_) fun _ => ?_
  · exact refines_egressCsum hk hr hdrops hbal v hs₁ hhd (by decide) (by decide) _ rfl
  refine Refines.ite (fun _ => ?_) fun _ => ?_
  · exact refines_egressCsum hk hr hdrops hbal v hs₁ hhd (by decide) (by decide) _ rfl
  refine Refines.ite (fun _ => ?_) fun _ => ?_
  · exact refines_drop hs₁.counters (congrFun hdrops .egressDropFragNoCsum)
  -- the full checksum: a sum that cannot be computed drops the packet
  refine (refines_udpFullCsum hk hr hs₁ hhd v.l4len _).step fun a s₂ ha => ?_
  obtain ⟨hsome, hrel, hs₂⟩ := ha
  cases a with
  | none =>
    refine Refines.of_error (exec_drop _ s₂) ⟨rfl, congrFun hdrops .egressDropTooBig, ?_⟩
      fun h => ?_
    · rw [← hs₂.counters]
    · rw [← hrel h]
  | some full =>
    rw [← hsome (by simp)]
    exact hs₂.storeTail hk hr hhd (congrFun hdrops .egressDropHelper) _
      (show 14 ≤ v.l4off by omega) (by omega)

include hk hr hdrops hbal in
theorem refines_egressIcmp (v : EgressVars) (hs : At r proto (hd ++ l) s)
    (hhd : hd.length = v.l4off) :
    Refines r.stop reliable (egressIcmp k c v) (egressIcmpBytes k c r.ipSummed v l)
      (fun _ out s' => At r proto (hd ++ out) s') s := by
  have hoff := v.l4off_cases
  refine hs.loadTail (i := 0) hk hr hhd (congrFun hdrops .egressDropTruncated) rfl
    fun _ s₁ hs₁ => ?_
  have hdropType : ∀ key, egressIcmpType (load8 (slice l 0 2) 0) = .error key →
      r.drops key = true := by
    intro key hkey
    rw [egressIcmpType] at hkey
    split at hkey
    · cases hkey
    · split at hkey
      · cases hkey
      · rw [← Except.error.inj hkey]
        exact congrFun hdrops .egressDropIcmpUnsupported
  refine (refines_orDropWith hs₁.counters hdropType).bind fun t6 t6' s₂ h₂ => ?_
  obtain ⟨rfl, rfl⟩ := h₂
  refine (hs₁.storeTail (i := 0) hk hr hhd (congrFun hdrops .egressDropHelper) _
    (show 14 ≤ v.l4off by omega) (by omega)).bind fun _ out s₃ hs₃ => ?_
  exact refines_egressCsum hk hr hdrops hbal v hs₃ hhd (by decide) (by decide) _ rfl

include hk hr hdrops hbal in
theorem refines_egressL4 (v : EgressVars) (hs : At r proto (hd ++ l) s)
    (hhd : hd.length = v.l4off) :
    Refines r.stop reliable (egressL4 k c v) (egressL4Bytes k c r.ipSummed v l)
      (fun _ out s' => At r proto (hd ++ out) s') s := by
  refine Refines.ite (fun _ => ?_) fun _ => ?_
  · exact refines_egressCsum hk hr hdrops hbal v hs hhd (by decide) (by decide) _ rfl
  refine Refines.ite (fun _ => refines_egressUdp c hk hr hdrops hbal v hs hhd) fun _ => ?_
  refine Refines.ite (fun _ => refines_egressIcmp c hk hr hdrops hbal v hs hhd) fun _ => ?_
  exact Refines.pure hs

/-! ## The program -/

include hk hr hdrops in
/-- The fixed header is linear and read. -/
theorem refines_egressLinear (hs : At r proto data s) :
    Refines r.stop reliable (egressLinear k)
      (if ethHlen + ip4Hlen ≤ data.length then .ok (Iphdr.load data ethHlen)
      else .error .egressDropTruncated)
      (fun a b s' => a = b ∧ At r proto data s') s := by
  obtain ⟨b, s₁, hexec, hs₁, hlin, hiff⟩ := hs.ensureLinear hk (ethHlen + ip4Hlen)
  refine Refines.exec_step hexec ?_
  cases b with
  | false =>
    refine Refines.of_error (exec_drop _ s₁) ⟨rfl, congrFun hdrops .egressDropTruncated, ?_⟩
      fun hrel => ?_
    · rw [← hs₁.counters]
    · refine if_neg fun hlen => ?_
      rw [← hs.data] at hlen
      have hpulls : k.PullsData := (hr hrel).pullData
      exact absurd (hiff.mpr (hpulls.linearises hlen)) Bool.false_ne_true
  | true =>
    have hhead : ethHlen + ip4Hlen ≤ s₁.skb.headlen := hlin rfl
    have hlen : ethHlen + ip4Hlen ≤ data.length := by
      rw [← hs₁.data]
      exact le_trans hhead s₁.skb.headlen_le
    rw [if_pos hlen]
    refine Refines.exec_step (exec_get s₁) ?_
    show Refines r.stop reliable (if ethHlen + ip4Hlen > s₁.skb.headlen then _ else _) _ _ _
    rw [if_neg (by omega), hs₁.data]
    exact Refines.pure ⟨rfl, hs₁⟩

/-- The header checks drop with counters of the egress program. -/
theorem egressHeader_error {ip4 : Iphdr} {key : Counter} (h : egressHeader c ip4 = .error key) :
    key.isEgressDrop = true := by
  rw [egressHeader] at h
  split at h
  · exact Except.error.inj h ▸ rfl
  split at h
  · exact Except.error.inj h ▸ rfl
  split at h
  · exact Except.error.inj h ▸ rfl
  split at h
  · exact Except.error.inj h ▸ rfl
  split at h
  · exact Except.error.inj h ▸ rfl
  split at h
  · exact Except.error.inj h ▸ rfl
  · cases h

/-- What comes before the transport header: header checks, options and the reshape. -/
def egressFront (k : Kernel) (c : Constants) : Clat EgressVars := do
  let ip4 ← egressLinear k
  let v ← orDropWith (egressHeader c ip4)
  egressOptions k v
  egressReshape k c v
  return v

/-- The variables and the transport bytes it leaves. -/
def egressFrontParts (c : Constants) (data : List UInt8) :
    Except Counter (EgressVars × List UInt8) :=
  if ethHlen + ip4Hlen ≤ data.length then do
    let v ← egressHeader c (Iphdr.load data ethHlen)
    let l4 ← stripOptions (v.ihl - ip4Hlen) (data.drop (ethHlen + ip4Hlen))
    .ok (v, l4)
  else
    .error .egressDropTruncated

theorem egressTranslate_eq_front (k : Kernel) (c : Constants) :
    egressTranslate k c =
      egressFront k c >>= fun v => if v.first then egressL4 k c v else pure () := by
  simp only [egressTranslate, egressFront, bind_assoc, pure_bind]

theorem egressFrame_eq_front (k : Kernel) (c : Constants) (st : IpSummed) (data : List UInt8) :
    egressFrame k c st data = egressFrontParts c data >>= fun x =>
      egressPayload k c st x.1 x.2 >>= fun l4 => .ok (egressHeaders c x.1 data ++ l4) := by
  rw [egressFrame, egressFrontParts]
  split
  · simp only [bind_assoc]
    rfl
  · rfl

include hk hr hdrops hbal in
theorem refines_egressFront (hs : At r proto data s) (hp : reliable → proto = bpfHtons ethPIp) :
    Refines r.stop reliable (egressFront k c) (egressFrontParts c data)
      (fun v x s' => v = x.1 ∧ 12 ≤ data.length ∧
        At r (bpfHtons ethPIpv6) (egressHeaders c x.1 data ++ x.2) s') s := by
  have hlinear := refines_egressLinear hk hr hdrops hs
  rw [egressFrontParts]
  by_cases hlen : ethHlen + ip4Hlen ≤ data.length
  swap
  · rw [if_neg hlen] at hlinear ⊢
    exact hlinear.bind_error
  rw [if_pos hlen] at hlinear ⊢
  have hlen' : 34 ≤ data.length := hlen
  refine hlinear.step fun ip4 s₁ h₁ => ?_
  obtain ⟨rfl, hs₁⟩ := h₁
  refine (refines_orDropWith hs₁.counters fun key hkey =>
    (congrFun hdrops key).trans (egressHeader_error c hkey)).bind fun v v' s₂ h₂ => ?_
  obtain ⟨rfl, rfl⟩ := h₂
  -- the frame, cut behind MAC addresses, EtherType and fixed header
  have hm : (data.take 12).length = 12 := by
    rw [List.length_take]
    omega
  have ht : (slice data 12 2).length = 2 := length_slice (by omega)
  have hh4 : (slice data 14 20).length = 20 := length_slice (by omega)
  have hhd : (data.take 12 ++ (slice data 12 2 ++ slice data 14 20)).length
      = ethHlen + ip4Hlen := by
    rw [List.length_append, List.length_append, hm, ht, hh4]
    rfl
  have hsplit : data = data.take 12 ++ (slice data 12 2 ++ slice data 14 20)
      ++ data.drop (ethHlen + ip4Hlen) := by
    conv_lhs => rw [← List.take_append_drop 34 data]
    rw [← slice_zero data 34, slice_add data 0 12 22, slice_add data (0 + 12) 2 20, slice_zero]
    rfl
  rw [hsplit] at hs₁
  refine (refines_egressOptions hk hr hdrops hbal v hs₁ hhd hp).bind fun _ l4 s₃ h₃ => ?_
  obtain ⟨data', hs₃, hdata'⟩ := h₃
  simp only [List.append_assoc] at hdata'
  refine (refines_egressReshape c hk hr hdrops hbal v hs₃ hdata' hm ht hh4 hp).step
    fun _ s₄ hs₄ => ?_
  exact Refines.pure ⟨rfl, by omega, hs₄⟩

include hk hr hdrops hbal in
/-- **Everything behind the EtherType test follows the egress translation.** -/
theorem refines_egressTranslate (hs : At r proto data s)
    (hp : reliable → proto = bpfHtons ethPIp) :
    Refines r.stop reliable (egressTranslate k c) (egressFrame k c r.ipSummed data)
      (fun _ out s' => At r (bpfHtons ethPIpv6) out s') s := by
  rw [egressTranslate_eq_front, egressFrame_eq_front]
  refine (refines_egressFront c hk hr hdrops hbal hs hp).bind fun v x s₁ h₁ => ?_
  obtain ⟨rfl, hlen, hs₁⟩ := h₁
  have hl4off : (egressHeaders c x.1 data).length = x.1.l4off := length_egressHeaders hlen
  refine Refines.map
    (R := fun _ out s' => At r (bpfHtons ethPIpv6) (egressHeaders c x.1 data ++ out) s') ?_
    fun _ _ _ hout => hout
  exact Refines.ite (fun _ => refines_egressL4 c hk hr hdrops hbal x.1 hs₁ hl4off)
    fun _ => Refines.pure hs₁

end Paragraphs

/-! ## The program -/

variable {k : Kernel} {c : Constants} {s : State}

/-- The EtherType test. -/
theorem exec_egressMatch (s : State) :
    exec egressMatch s =
      if HasEtherType s.skb.data ethPIp then (.ok (), s) else (.error .ok, s) := by
  have hlin := ethHlen_le_headlen s.skb
  rw [egressMatch, exec_bind_ok (exec_get s)]
  by_cases hipv4 : HasEtherType s.skb.data ethPIp
  · have hlong := hlin.mpr hipv4.1
    rw [if_pos hipv4, if_neg (by omega), if_neg (not_not.mpr hipv4.2)]
    rfl
  · rw [if_neg hipv4]
    by_cases hshort : ethHlen > s.skb.headlen
    · rw [if_pos hshort]
      rfl
    · have het : load16 s.skb.data 12 ≠ bpfHtons ethPIp :=
        fun het => hipv4 ⟨hlin.mp (by omega), het⟩
      rw [if_neg hshort, if_pos het]
      rfl

/-- Whatever is not IPv4 passes through `clat_egress` without a trace. -/
theorem clatEgress_of_not_ipv4 (h : ¬ HasEtherType s.skb.data ethPIp) :
    clatEgress k c s = (.ok, s) := by
  have hmatch := exec_egressMatch s
  rw [if_neg h] at hmatch
  rw [clatEgress, runProg, clatEgressProg, exec_bind_error hmatch]

/-- **The runs of `clat_egress` over IPv4 frames.**  Either the program leaves the frame that the
egress translation computes, or it drops the packet; and if no helper fails, it drops it for the
reason the translation gives. -/
theorem clatEgress_cases (hk : k.Lawful) (h : HasEtherType s.skb.data ethPIp) :
    (∃ out, egressFrame k c s.skb.ipSummed s.skb.data = .ok out ∧
      Translated s .egressTranslated (bpfHtons ethPIpv6) out (clatEgress k c s)) ∨
    ∃ key : Counter, key.isEgressDrop = true ∧ Dropped s key (clatEgress k c s) ∧
      (NoFault k s ethPIp →
        egressFrame k c s.skb.ipSummed s.skb.data = .error key) := by
  have hmatch := exec_egressMatch s
  rw [if_pos h] at hmatch
  let r : Run := s.startRun Counter.isEgressDrop
  have hrun : Refines r.stop (NoFault k s ethPIp) (egressTranslate k c)
      (egressFrame k c r.ipSummed s.skb.data)
      (fun _ out s' => At r (bpfHtons ethPIpv6) out s') s :=
    refines_egressTranslate c hk And.left rfl not_false (at_startRun s _) And.right
  rw [Refines] at hrun
  rw [clatEgress, runProg, clatEgressProg, exec_bind_ok hmatch]
  rcases hexec : exec (egressTranslate k c) s with ⟨v | u, s'⟩
  · rw [hexec] at hrun
    obtain ⟨key, ⟨hv, hkey, hcnt⟩, hrel⟩ := hrun
    rw [exec_bind_error hexec]
    exact Or.inr ⟨key, hkey, ⟨hv, hcnt⟩, hrel⟩
  · rw [hexec] at hrun
    obtain ⟨out, hout, hat⟩ := hrun
    rw [exec_bind_ok hexec]
    refine Or.inl ⟨out, hout, rfl, hat.data, hat.protocol, hat.ipSummed, ?_⟩
    exact congrArg (bump · Counter.egressTranslated) hat.counters

end CiliumClat
