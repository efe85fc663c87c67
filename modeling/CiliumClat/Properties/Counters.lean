import CiliumClat.Properties.Classification
import Mathlib.Algebra.BigOperators.Group.Finset.Basic

/-!
# The counters account for every packet

Operators diagnose the datapath from the counters alone, so the counters have to say what
happened: how many packets were translated in each direction, and how many were dropped.

A *trace* is any sequence of packets that arrive at the two hooks of one CPU, each with whatever
its helpers do (`Arrival`).  What one run can do to the counters is said once, in
`Arrival.outcome_cases`: nothing, if the packet passes; one more translation; or one more drop of
its own direction.  `counters_runs` carries such a statement from one run to a whole trace.
-/

namespace CiliumClat

open ByteList

/-! ## Traces -/

/-- A packet that arrives at a hook, and the helpers that run finds. -/
structure Arrival where
  hook : Hook
  kernel : Kernel
  lawful : kernel.Lawful
  skb : Skb

/-- One run: the packet that arrived, the counters before it, and what it left. -/
structure Outcome where
  arrival : Arrival
  before : Counter → ℕ
  verdict : TcAct
  after : State

/-- The program of a hook. -/
def Hook.program : Hook → Kernel → Constants → State → TcAct × State
  | .egress => clatEgress
  | .ingress => clatIngress

/-- The state in which the program of a hook finds a packet. -/
def Arrival.start (a : Arrival) (n : Counter → ℕ) : State where
  skb := a.skb
  counters := n
  calls := 0

/-- The run over one packet. -/
def Arrival.outcome (c : Constants) (a : Arrival) (n : Counter → ℕ) : Outcome where
  arrival := a
  before := n
  verdict := (a.hook.program a.kernel c (a.start n)).1
  after := (a.hook.program a.kernel c (a.start n)).2

/-- The runs over a trace, one after the other over the same counters. -/
def runs (c : Constants) : (Counter → ℕ) → List Arrival → List Outcome
  | _, [] => []
  | n, a :: as => a.outcome c n :: runs c (a.outcome c n).after.counters as

/-- The counters after a trace. -/
def countersAfter (c : Constants) : (Counter → ℕ) → List Arrival → Counter → ℕ
  | n, [] => n
  | n, a :: as => countersAfter c (a.outcome c n).after.counters as

/-! ## What the counters are to say -/

instance : Fintype Counter where
  elems := {.egressTranslated, .ingressTranslated, .egressDropTruncated, .egressDropBadSrc,
    .egressDropMcast, .egressDropSrcroute, .egressDropFragNoCsum, .egressDropIcmpUnsupported,
    .egressDropTooBig, .egressDropHelper, .ingressDropTruncated, .ingressDropExthdr,
    .ingressDropUdpZeroCsum, .ingressDropFragIcmp, .ingressDropIcmpUnsupported,
    .ingressDropIcmpInner, .ingressDropHelper}
  complete key := by
    cases key with
    | _ => decide

/-- The counters a hook drops with. -/
def Hook.isDrop : Hook → Counter → Bool
  | .egress => Counter.isEgressDrop
  | .ingress => Counter.isIngressDrop

/-- The counter of the packets a hook translates. -/
def Hook.translated : Hook → Counter
  | .egress => .egressTranslated
  | .ingress => .ingressTranslated

theorem Hook.translated_inj {h h' : Hook} : h.translated = h'.translated ↔ h = h' := by
  cases h with
  | _ => cases h' with
    | _ => decide

/-- The translation counters are no drop counters. -/
theorem Hook.isDrop_translated (h h' : Hook) : h.isDrop h'.translated = false := by
  cases h with
  | _ => cases h' with
    | _ => rfl

/-- The two hooks have no drop counter in common. -/
theorem Hook.isDrop_iff {h h' : Hook} {key : Counter} (hkey : h.isDrop key = true) :
    h'.isDrop key = true ↔ h = h' := by
  revert hkey
  cases h with
  | _ => cases h' with
    | _ => cases key with
      | _ => decide

/-- The packets a hook has dropped, by its counters. -/
def Hook.drops (h : Hook) (n : Counter → ℕ) : ℕ :=
  ∑ key with h.isDrop key, n key

/-- A run that translates: `TC_ACT_OK` on an IPv4 frame at the egress hook, `TC_ACT_OK` with a
frame turned into IPv4 at the ingress hook. -/
def Outcome.Translates (h : Hook) (o : Outcome) : Prop :=
  o.arrival.hook = h ∧ o.verdict = .ok ∧
    match h with
    | .egress => HasEtherType o.arrival.skb.data ethPIp
    | .ingress => ¬ HasEtherType o.arrival.skb.data ethPIp ∧ HasEtherType o.after.skb.data ethPIp

instance (h : Hook) (o : Outcome) : Decidable (o.Translates h) :=
  match h with
  | .egress => inferInstanceAs (Decidable (_ ∧ _ ∧ HasEtherType o.arrival.skb.data ethPIp))
  | .ingress => inferInstanceAs (Decidable (_ ∧ _ ∧
      ¬ HasEtherType o.arrival.skb.data ethPIp ∧ HasEtherType o.after.skb.data ethPIp))

/-- A run that drops: `TC_ACT_SHOT`. -/
def Outcome.Drops (h : Hook) (o : Outcome) : Prop :=
  o.arrival.hook = h ∧ o.verdict = .shot

instance (h : Hook) (o : Outcome) : Decidable (o.Drops h) :=
  inferInstanceAs (Decidable (_ ∧ _))

/-- A run that passes the frame through unmodified. -/
def Outcome.Unmodified (o : Outcome) : Prop :=
  o.verdict = .ok ∧ o.after.skb.data = o.arrival.skb.data

/-! ## One run -/

theorem bump_apply (n : Counter → ℕ) (key key' : Counter) :
    bump n key key' = n key' + if key' = key then 1 else 0 := by
  rw [bump, Function.update_apply]
  split
  · next h => rw [h]
  · rfl

/-- A bump of a counter is one drop more if the hook drops with that counter. -/
theorem Hook.drops_bump (h : Hook) (n : Counter → ℕ) (key : Counter) :
    h.drops (bump n key) = h.drops n + if h.isDrop key then 1 else 0 := by
  simp only [Hook.drops, bump_apply, Finset.sum_add_distrib, Finset.sum_ite_eq',
    Finset.mem_filter_univ]

/-- The frame a hook translates, by its EtherType, and what it becomes. -/
def Hook.etherTypes : Hook → UInt16 × UInt16
  | .egress => (ethPIp, ethPIpv6)
  | .ingress => (ethPIpv6, ethPIp)

/-- A frame has one EtherType. -/
theorem HasEtherType.not_ipv6 {data : List UInt8} (h : HasEtherType data ethPIp) :
    ¬ HasEtherType data ethPIpv6 := by
  intro h6
  exact absurd (h.2.symm.trans h6.2) (by decide)

theorem hasEtherType_egressHeaders {c : Constants} {v : EgressVars} {data l : List UInt8}
    (h : 12 ≤ data.length) : HasEtherType (egressHeaders c v data ++ l) ethPIpv6 := by
  rw [egressHeaders, List.append_assoc, List.append_assoc]
  exact hasEtherType_take_append data h

/-- **What one run can do to the counters.**  The packet passes and no counter changes; or it is
translated, its EtherType with it, and the counter of its hook goes up; or it is dropped and a drop
counter of its hook goes up.  An IPv4 frame does not pass the egress hook. -/
theorem Arrival.outcome_cases (c : Constants) (a : Arrival) (n : Counter → ℕ) :
    ((a.outcome c n).verdict = .ok ∧ (a.outcome c n).after.skb.data = a.skb.data ∧
      (a.outcome c n).after.counters = n ∧
      (a.hook = .egress → ¬ HasEtherType a.skb.data ethPIp)) ∨
    ((a.outcome c n).verdict = .ok ∧ (a.outcome c n).after.counters = bump n a.hook.translated ∧
      HasEtherType a.skb.data a.hook.etherTypes.1 ∧
      HasEtherType (a.outcome c n).after.skb.data a.hook.etherTypes.2) ∨
    ∃ key, a.hook.isDrop key = true ∧ (a.outcome c n).verdict = .shot ∧
      (a.outcome c n).after.counters = bump n key := by
  obtain ⟨hook, k, hk, skb⟩ := a
  cases hook with
  | egress =>
    by_cases hipv4 : HasEtherType skb.data ethPIp
    · rcases clatEgress_cases (c := c) (s := ⟨skb, n, 0⟩) hk hipv4 with
        ⟨out, hout, htr⟩ | ⟨key, hkey, hdrop, -⟩
      · refine Or.inr (Or.inl ⟨htr.verdict, htr.counters, hipv4, ?_⟩)
        obtain ⟨hlen, -, -, -, l4, -, rfl⟩ := egressFrame_eq_ok.mp hout
        show HasEtherType (clatEgress k c ⟨skb, n, 0⟩).2.skb.data ethPIpv6
        rw [htr.data]
        exact hasEtherType_egressHeaders (le_trans (by decide) hlen)
      · exact Or.inr (Or.inr ⟨key, hkey, hdrop.verdict, hdrop.counters⟩)
    · have hpass := clatEgress_of_not_ipv4 (k := k) (c := c) (s := ⟨skb, n, 0⟩) hipv4
      refine Or.inl ⟨congrArg Prod.fst hpass, ?_, ?_, fun _ => hipv4⟩
      · exact congrArg (fun res => res.2.skb.data) hpass
      · exact congrArg (fun res => res.2.counters) hpass
  | ingress =>
    rcases clatIngress_cases (c := c) (s := ⟨skb, n, 0⟩) hk (False.elim : False → _) False.elim with
      ⟨hpass, -⟩ | ⟨⟨hlen, hret⟩, ⟨out, hout, present, -, htr, -⟩ | ⟨key, hkey, hdrop, -⟩⟩
    · exact Or.inl ⟨hpass.verdict, hpass.data, hpass.counters, fun h => nomatch h⟩
    · refine Or.inr (Or.inl ⟨htr.verdict, htr.counters, ⟨le_trans (by decide) hlen, hret.1⟩, ?_⟩)
      obtain ⟨v, x, -, -, rfl⟩ := ingressFrame_eq_ok.mp hout
      show HasEtherType (clatIngress k c ⟨skb, n, 0⟩).2.skb.data ethPIp
      rw [htr.data]
      exact hasEtherType_ingressHeaders (le_trans (by decide) hlen)
    · exact Or.inr (Or.inr ⟨key, hkey, hdrop.verdict, hdrop.counters⟩)

/-- One run moves the translation counter of a hook by the translations it makes there. -/
theorem Arrival.translated_outcome (c : Constants) (a : Arrival) (h : Hook) (n : Counter → ℕ) :
    (a.outcome c n).after.counters h.translated
      = n h.translated + if (a.outcome c n).Translates h then 1 else 0 := by
  rcases a.outcome_cases c n with
    ⟨hok, hdata, hcnt, hnot⟩ | ⟨hok, hcnt, hsrc, hdst⟩ | ⟨key, hkey, hshot, hcnt⟩
  · -- a packet that passes is not translated: its EtherType is as before
    have hno : ¬ (a.outcome c n).Translates h := by
      rintro ⟨hhook, -, htype⟩
      cases h with
      | egress => exact hnot hhook htype
      | ingress =>
        rw [hdata] at htype
        exact htype.1 htype.2
    rw [hcnt, if_neg hno]
    rfl
  · have hiff : h.translated = a.hook.translated ↔ (a.outcome c n).Translates h := by
      rw [Hook.translated_inj]
      constructor
      · rintro rfl
        refine ⟨rfl, hok, ?_⟩
        cases hhook : a.hook with
        | egress =>
          rw [hhook] at hsrc
          exact hsrc
        | ingress =>
          rw [hhook] at hsrc hdst
          exact ⟨fun h4 => h4.not_ipv6 hsrc, hdst⟩
      · rintro ⟨hhook, -, -⟩
        exact hhook.symm
    rw [hcnt, bump_apply]
    exact congrArg (n h.translated + ·) (if_congr hiff rfl rfl)
  · have hno : ¬ (a.outcome c n).Translates h := fun ht =>
      absurd (hshot.symm.trans ht.2.1) (by decide)
    have hother : h.translated ≠ key := by
      rintro rfl
      rw [Hook.isDrop_translated] at hkey
      exact Bool.false_ne_true hkey
    rw [hcnt, bump_apply, if_neg hother, if_neg hno]

/-- One run moves the drop counters of a hook, taken together, by the drops it makes there. -/
theorem Arrival.drops_outcome (c : Constants) (a : Arrival) (h : Hook) (n : Counter → ℕ) :
    h.drops (a.outcome c n).after.counters
      = h.drops n + if (a.outcome c n).Drops h then 1 else 0 := by
  rcases a.outcome_cases c n with
    ⟨hok, -, hcnt, -⟩ | ⟨hok, hcnt, -, -⟩ | ⟨key, hkey, hshot, hcnt⟩
  · rw [hcnt, if_neg fun hd => absurd (hok.symm.trans hd.2) (by decide)]
    rfl
  · rw [hcnt, Hook.drops_bump, Hook.isDrop_translated, if_neg Bool.false_ne_true,
      if_neg fun hd => absurd (hok.symm.trans hd.2) (by decide)]
  · have hiff : h.isDrop key = true ↔ (a.outcome c n).Drops h :=
      (Hook.isDrop_iff hkey).trans ⟨fun hh => ⟨hh, hshot⟩, And.left⟩
    rw [hcnt, Hook.drops_bump]
    exact congrArg (h.drops n + ·) (if_congr hiff rfl rfl)

/-- A run that leaves the frame as it is leaves the counters as they are. -/
theorem Arrival.counters_unmodified (c : Constants) (a : Arrival) (n : Counter → ℕ)
    (h : (a.outcome c n).Unmodified) : (a.outcome c n).after.counters = n := by
  rcases a.outcome_cases c n with
    ⟨-, -, hcnt, -⟩ | ⟨-, -, hsrc, hdst⟩ | ⟨key, -, hshot, -⟩
  · exact hcnt
  · rw [show (a.outcome c n).after.skb.data = a.skb.data from h.2] at hdst
    cases hhook : a.hook with
    | egress =>
      rw [hhook] at hsrc hdst
      exact absurd hdst hsrc.not_ipv6
    | ingress =>
      rw [hhook] at hsrc hdst
      exact absurd hsrc hdst.not_ipv6
  · exact absurd (hshot.symm.trans h.1) (by decide)

/-! ## A whole trace -/

/-- **From one run to a trace.**  A quantity that every run moves by one when it has the property
`P`, and else not at all, counts the runs with that property. -/
theorem countersAfter_eq {c : Constants} {f : (Counter → ℕ) → ℕ} {P : Outcome → Prop}
    [DecidablePred P]
    (hstep : ∀ (a : Arrival) n, f (a.outcome c n).after.counters
      = f n + if P (a.outcome c n) then 1 else 0) :
    ∀ (as : List Arrival) (n : Counter → ℕ),
      f (countersAfter c n as) = f n + (runs c n as).countP (fun o => decide (P o))
  | [], _ => rfl
  | a :: as, n => by
    rw [countersAfter, runs, countersAfter_eq hstep as, hstep a n, List.countP_cons,
      Nat.add_assoc, Nat.add_comm (if P (a.outcome c n) then 1 else 0)]
    simp only [decide_eq_true_eq]

/-- Every run of a trace is the run of a packet over the counters it found. -/
theorem exists_outcome_of_mem_runs {c : Constants} {o : Outcome} :
    ∀ {as : List Arrival} {n : Counter → ℕ}, o ∈ runs c n as →
      ∃ (a : Arrival) (m : Counter → ℕ), o = a.outcome c m
  | [], _, h => nomatch h
  | a :: as, n, h => by
    rcases List.mem_cons.mp h with rfl | h
    · exact ⟨a, n, rfl⟩
    · exact exists_outcome_of_mem_runs h

/-- **The counters account for every packet.**  After any trace from zero counters, the translation
counter of each hook is the number of its runs that translated, its drop counters add up to the
number of its runs that dropped, and no run that left its frame as it was has changed a counter. -/
theorem counters_account_for_every_packet (c : Constants) (as : List Arrival) :
    (∀ h : Hook,
      countersAfter c (fun _ => 0) as h.translated
        = (runs c (fun _ => 0) as).countP (fun o => decide (o.Translates h)) ∧
      h.drops (countersAfter c (fun _ => 0) as)
        = (runs c (fun _ => 0) as).countP (fun o => decide (o.Drops h))) ∧
    ∀ o ∈ runs c (fun _ => 0) as, o.Unmodified → o.after.counters = o.before := by
  refine ⟨fun h => ⟨?_, ?_⟩, fun o ho hsame => ?_⟩
  · have hcount := countersAfter_eq (f := fun n => n h.translated)
      (fun a n => a.translated_outcome c h n) as (fun _ => 0)
    rwa [Nat.zero_add] at hcount
  · have hzero : h.drops (fun _ => 0) = 0 := Finset.sum_const_zero
    rw [countersAfter_eq (fun a n => a.drops_outcome c h n) as, hzero, Nat.zero_add]
  · obtain ⟨a, m, rfl⟩ := exists_outcome_of_mem_runs ho
    exact a.counters_unmodified c m hsame

/-- A TCP segment out, a Hop-by-Hop header in, and a native packet in: one translation, one drop. -/
def testTrace : List Arrival :=
  [⟨.egress, .reference, Kernel.reference_lawful,
      (testState (testFrame4 0 6 (List.replicate 20 7)) ethPIp).skb⟩,
    ⟨.ingress, .reference, Kernel.reference_lawful,
      (testState (testFrame6 0 testPeer6 (List.replicate 20 7)) ethPIpv6).skb⟩,
    ⟨.ingress, .reference, Kernel.reference_lawful,
      (testState (testFrame6 6 (List.replicate 16 1) (List.replicate 20 7)) ethPIpv6).skb⟩]

example : countersAfter testConstants (fun _ => 0) testTrace .egressTranslated = 1 ∧
    countersAfter testConstants (fun _ => 0) testTrace .ingressDropExthdr = 1 ∧
    countersAfter testConstants (fun _ => 0) testTrace .ingressTranslated = 0 := by
  decide +kernel

end CiliumClat
