import CiliumClat.Library.EventMachine
import CiliumClat.Properties.Mtu
import Mathlib.Data.List.Perm.Subperm
import Mathlib.Data.List.ProdSigma

/-!
# Path-MTU discovery ends

The pod sends IPv4 packets of the size that it thinks fits; on the way they are IPv6 packets, longer
by the growth of the translation.  A link of the path that a packet does not fit refuses it with a
Packet Too Big, `clat_ingress` makes a Fragmentation Needed of that, and the pod takes the MTU in it
for the path from then on.

For one packet and one error the two programs agree on the growth (`growth`).  Here they are put in
the loop.  A *path* is any list of link MTUs that IPv6 allows, a *round* is a packet of the pod and
the error about it, which may also get lost, and `discovery` is the pod's estimate from round to
round.  Whole packets and fragments share the estimate but not the growth, so a link may refuse one
of each kind; after that nothing of the kind is too big for it.  So the pod loses at most two
packets for each link that it hears of, and its estimate never falls below what the smallest IPv6
MTU leaves.
-/

namespace CiliumClat

open ByteList EventMachine

variable {c : Constants} {path : List ℕ}

/-! ## The loop -/

/-- A packet that meets a program, with the helpers of that run. -/
structure Meeting where
  kernel : Kernel
  lawful : kernel.Lawful
  state : State

/-- A packet of the pod, and the error about it as it arrives at the pod, if there is one and it
does. -/
structure Round where
  packet : Meeting
  error : Option Meeting

namespace Round

/-- The packet of the pod. -/
def sent (r : Round) : Iphdr :=
  Iphdr.load r.packet.state.skb.data ethHlen

/-- What `clat_egress` makes of it. -/
def onPath (c : Constants) (r : Round) : List UInt8 :=
  (clatEgress r.packet.kernel c r.packet.state).2.skb.data

/-- The MTU of the first link that does not take it. -/
def refusedBy (c : Constants) (path : List ℕ) (r : Round) : Option ℕ :=
  path.find? fun m => decide (m < packetLength6 (r.onPath c))

/-- The link that has refused the packet and the error, if the pod hears of it. -/
def refusal (c : Constants) (path : List ℕ) (r : Round) : Option (ℕ × Meeting) :=
  (r.refusedBy c path).bind fun m => r.error.map fun e => (m, e)

/-- The pod keeps to its estimate `pmtu`, and an error says what it is about: the packet, and the
link that has refused it. -/
structure Obeys (c : Constants) (path : List ℕ) (pmtu : ℕ) (r : Round) : Prop where
  translates : EgressTranslates r.packet.kernel c r.packet.state
  options : r.sent.headerLength = ip4Hlen
  length : r.sent.length ≤ pmtu
  error : ∀ m e, r.refusal c path = some (m, e) →
    IngressTranslates e.kernel c e.state ∧ TooBigAbout (r.onPath c) e.state.skb.data m

end Round

/-- The estimate of the pod.  The answers are the refusals that it hears of, each with the link and
whether the packet was a fragment. -/
def discovery (c : Constants) (path : List ℕ) : Machine ℕ Round (ℕ × Bool) where
  step pmtu r :=
    match r.refusal c path with
    | some (m, e) =>
      (min pmtu (icmpMtu (clatIngress e.kernel c e.state).2.skb.data),
        some (m, decide r.sent.IsFragment))
    | none => (pmtu, none)

/-! ## One round -/

theorem growth_le_growth {b b' : Bool} (h : b = true → b' = true) : growth b ≤ growth b' := by
  cases b with
  | false => exact Nat.le_add_right _ _
  | true => rw [h rfl]

namespace Round

variable {r : Round} {pmtu m : ℕ}

/-- A packet that keeps to the estimate is on the path at most by its growth longer. -/
theorem Obeys.packetLength6_le (h : r.Obeys c path pmtu) :
    packetLength6 (r.onPath c) ≤ pmtu + growth (decide r.sent.IsFragment) :=
  (h.translates.growth_le r.packet.lawful h.options decide_eq_true).trans
    (Nat.add_le_add_right h.length _)

theorem mem_of_refusal {e : Meeting} (h : r.refusal c path = some (m, e)) :
    m ∈ path ∧ m < packetLength6 (r.onPath c) := by
  obtain ⟨m', hm', herror⟩ := Option.bind_eq_some_iff.mp h
  obtain ⟨e', -, heq⟩ := Option.map_eq_some_iff.mp herror
  obtain ⟨rfl, -⟩ := Prod.mk.inj heq
  have hlong := List.find?_some hm'
  exact ⟨List.mem_of_find?_eq_some hm', of_decide_eq_true hlong⟩

/-- The MTU that the pod hears: that of the link, less at least the growth of the packet. -/
theorem Obeys.icmpMtu_eq (h : r.Obeys c path pmtu) (hm : 1280 ≤ m) {e : Meeting}
    (hrefusal : r.refusal c path = some (m, e)) :
    ∃ b, (r.sent.IsFragment → b = true) ∧
      icmpMtu (clatIngress e.kernel c e.state).2.skb.data = min m 65535 - growth b := by
  obtain ⟨htr, hbig⟩ := h.error m e hrefusal
  obtain ⟨-, -, b, hb, hmtu⟩ := htr.tooBig e.lawful hbig
  have hgrowth : growth b ≤ 28 := growth_le_growth fun _ => rfl
  refine ⟨b, fun hfrag => hb.mpr (h.translates.nexthdr_of_fragment r.packet.lawful hfrag), ?_⟩
  rw [hmtu, mtu4_eq hm, Nat.mod_eq_of_lt (by omega)]

end Round

/-! ## The whole run -/

/-- What the refusals so far say about the estimate: the links that have refused take whatever of
the kind it allows now, and none has refused twice. -/
structure Learnt (path : List ℕ) (pmtu₀ pmtu : ℕ) (as : List (ℕ × Bool)) : Prop where
  fits : ∀ x ∈ as, x.1 ∈ path ∧ pmtu + growth x.2 ≤ x.1
  nodup : as.Nodup
  lower : min pmtu₀ (1280 - growth true) ≤ pmtu

theorem Learnt.step (hpath : ∀ m ∈ path, 1280 ≤ m) {pmtu₀ pmtu : ℕ} {as : List (ℕ × Bool)}
    {r : Round} (h : Learnt path pmtu₀ pmtu as) (hr : r.Obeys c path pmtu) :
    Learnt path pmtu₀ ((discovery c path).step pmtu r).1
      (as ++ ((discovery c path).step pmtu r).2.toList) := by
  cases hrefusal : r.refusal c path with
  | none =>
    simp only [discovery, hrefusal, Option.toList_none, List.append_nil]
    exact h
  | some me =>
    obtain ⟨m, e⟩ := me
    obtain ⟨hmem, hlong⟩ := Round.mem_of_refusal hrefusal
    have hm := hpath m hmem
    obtain ⟨b, hb, hmtu⟩ := hr.icmpMtu_eq hm hrefusal
    have hle := hr.packetLength6_le
    have hkind : growth (decide r.sent.IsFragment) ≤ growth b :=
      growth_le_growth fun hfrag => hb (of_decide_eq_true hfrag)
    have hgrowth : growth b ≤ growth true := growth_le_growth fun _ => rfl
    have htrue : growth true = 28 := rfl
    simp only [discovery, hrefusal, hmtu, Option.toList_some]
    refine ⟨fun x hx => ?_, ?_, ?_⟩
    · rcases List.mem_append.mp hx with hold | hnew
      · have hfits := h.fits x hold
        exact ⟨hfits.1, by omega⟩
      · obtain rfl := List.mem_singleton.mp hnew
        exact ⟨hmem, by dsimp only; omega⟩
    · -- The packet kept to an estimate with which it fits every link that has refused its kind.
      refine List.nodup_append.mpr ⟨h.nodup, List.nodup_singleton _, fun x hx y hy => ?_⟩
      obtain rfl := List.mem_singleton.mp hy
      rintro rfl
      have hfits := (h.fits _ hx).2
      dsimp only at hfits
      omega
    · have hlower := h.lower
      omega

/-- The answers are the packets that the pod hears of. -/
theorem length_answers_discovery (pmtu : ℕ) (rs : List Round) :
    ((discovery c path).answers pmtu rs).length =
      rs.countP fun r => (r.refusal c path).isSome := by
  induction rs generalizing pmtu with
  | nil => rfl
  | cons r rs ih =>
    rw [Machine.answers, List.length_append, ih, List.countP_cons, Nat.add_comm]
    congr 1
    cases hrefusal : r.refusal c path with
    | none =>
      simp only [discovery, hrefusal]
      rfl
    | some me =>
      simp only [discovery, hrefusal]
      rfl

/-- **Path-MTU discovery ends.**  On every path of links that IPv6 allows and over every run of a
pod that keeps to its estimate, with whole packets and fragments in any mixture and errors lost
anywhere: at most two packets for each link are refused with the pod hearing of it, the estimate
never falls below what the smallest IPv6 MTU leaves for a fragment, and at the end a packet of the
pod fits every link that has refused one of its kind. -/
theorem path_mtu_discovery_ends (hpath : ∀ m ∈ path, 1280 ≤ m) {pmtu : ℕ} {rs : List Round}
    (hrs : (discovery c path).Along (fun pmtu r => r.Obeys c path pmtu) pmtu rs) :
    rs.countP (fun r => (r.refusal c path).isSome) ≤ 2 * path.length ∧
      min pmtu 1252 ≤ (discovery c path).after pmtu rs ∧
      ∀ r : Round, r.Obeys c path ((discovery c path).after pmtu rs) →
        ∀ m, (m, decide r.sent.IsFragment) ∈ (discovery c path).answers pmtu rs →
          packetLength6 (r.onPath c) ≤ m := by
  have hlearnt : Learnt path pmtu ((discovery c path).after pmtu rs)
      ((discovery c path).answers pmtu rs) := by
    refine run_invariant (fun _ _ _ h hr => h.step hpath hr) hrs ⟨?_, List.nodup_nil, ?_⟩
    · exact fun x hx => absurd hx List.not_mem_nil
    · exact min_le_left _ _
  refine ⟨?_, hlearnt.lower, fun r hr m hm => ?_⟩
  · have hsub : (discovery c path).answers pmtu rs ⊆ path ×ˢ [false, true] := by
      intro x hx
      refine List.mem_product.mpr ⟨(hlearnt.fits x hx).1, ?_⟩
      cases x.2 with
      | _ => decide
    have hlength := (hlearnt.nodup.subperm hsub).length_le
    rw [List.length_product, length_answers_discovery] at hlength
    exact hlength.trans_eq (Nat.mul_comm _ _)
  · exact hr.packetLength6_le.trans (hlearnt.fits _ hm).2

/-- A fragment of the pod with a number of bytes behind its header. -/
def testFragment (n : ℕ) : Meeting :=
  ⟨.reference, Kernel.reference_lawful,
    testState (testFrame4 0x2001 17 (List.replicate n 0)) ethPIp⟩

/-- The error of a router about such a fragment, for a link with an MTU of 1280. -/
def testRefusal (n : ℕ) : Meeting :=
  ⟨.reference, Kernel.reference_lawful, testState
    (testTooBig (clatEgress .reference testConstants (testFragment n).state).2.skb.data 1280)
    ethPIpv6⟩

/-- A fragment that fills an estimate of 1260 bytes leaves in 1288 and is refused; the next one
keeps to what the pod has heard. -/
theorem path_mtu_discovery_ends_fragment :
    let rs : List Round := [⟨testFragment 1240, testRefusal 1240⟩, ⟨testFragment 1232, none⟩]
    (rs.countP fun r => (r.refusal testConstants [1500, 1280]).isSome) ≤ 4 ∧
      1252 ≤ (discovery testConstants [1500, 1280]).after 1260 rs := by
  intro rs
  have hpath : ∀ m ∈ [1500, 1280], 1280 ≤ m := by decide
  have hrs : (discovery testConstants [1500, 1280]).Along
      (fun pmtu r => r.Obeys testConstants [1500, 1280] pmtu) 1260 rs := by
    refine ⟨⟨by decide +kernel, by decide +kernel, by decide +kernel, fun m e hrefusal => ?_⟩,
      ⟨by decide +kernel, by decide +kernel, by decide +kernel, fun m e hrefusal => ?_⟩, trivial⟩
    · have hby : Round.refusedBy testConstants [1500, 1280]
          ⟨testFragment 1240, testRefusal 1240⟩ = some 1280 := by decide +kernel
      rw [Round.refusal, hby] at hrefusal
      cases hrefusal
      exact ⟨by decide +kernel, by decide +kernel, by decide +kernel, by decide +kernel,
        by decide +kernel⟩
    · obtain ⟨m', -, hnone⟩ := Option.bind_eq_some_iff.mp hrefusal
      cases hnone
  obtain ⟨hheard, hlower, -⟩ := path_mtu_discovery_ends hpath hrs
  exact ⟨hheard, hlower⟩

end CiliumClat
