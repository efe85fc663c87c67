import CiliumClat.Library.EventMachine
import CiliumClat.Properties.Counters
import CiliumClat.Properties.Reconfiguration

/-!
# The pod as a whole

The plugin and the programs meet in the namespace of the pod: ADD loads the programs with the
constants of the pod and attaches them, and from then on each packet at the pod interface runs the
program that is on its hook.  The `pod` is the machine that does both.  It takes the commands of the
container runtime and the packets of the interface in any order, and it answers a packet with what
becomes of it.

What the component is for can be said without namespaces, filters or helpers.  The `translator` has
one switch: either no translation is in force, or one under certain constants is.  ADD turns it on,
DEL turns it off, and a packet is translated, dropped or let through by the translation in force.

* `pod_follows_translator`: without faults the two cannot be told apart by any run.
* `pod_never_half_translates`: with any faults, in the commands and in the helpers, every packet
  passes as it was, is dropped, or leaves as a whole translation under the constants of an ADD that
  was there before it.
-/

namespace CiliumClat.Plugin

open KeyedTable EarlyExit EventMachine

variable {w : World} {h : Host} {args : CmdArgs} {conf : NetConf} {cfg cfg' : Config}
  {ns ns₀ : Netns} {link : Link} {c : CiliumClat.Constants} {hook : Hook}

/-! ## Programs on hooks -/

/-- The constants of the program on a hook of the interface, if there is one.  It is the program of
the first filter; on an interface that only the plugin puts filters on there is no other. -/
def Netns.clat (ns : Netns) (link : Link) (hook : Hook) : Option CiliumClat.Constants :=
  (ns.filtersOf link hook).head?.bind Filter.rodata

theorem mem_filtersOf {f : Filter} :
    f ∈ ns.filtersOf link hook ↔ f ∈ ns.filters ∧ f.linkIndex = link.index ∧ f.parent = hook := by
  rw [Netns.filtersOf, List.mem_filter, decide_eq_true_iff]
  exact Iff.rfl

theorem exists_of_clat (hclat : ns.clat link hook = some c) :
    ∃ f ∈ ns.filters, f.linkIndex = link.index ∧ f.parent = hook ∧ f.rodata = some c := by
  obtain ⟨f, hhead, hrodata⟩ := Option.bind_eq_some_iff.mp hclat
  obtain ⟨hf, hindex, hparent⟩ := mem_filtersOf.mp (List.mem_of_mem_head? hhead)
  exact ⟨f, hf, hindex, hparent, hrodata⟩

theorem clat_eq_none (hno : ∀ f ∈ ns.filters, f.linkIndex ≠ link.index) :
    ns.clat link hook = none := by
  rw [← Option.not_isSome_iff_eq_none, Option.isSome_iff_exists]
  rintro ⟨c, hclat⟩
  obtain ⟨f, hf, hindex, -⟩ := exists_of_clat hclat
  exact hno f hf hindex

theorem clat_eq_some (hsome : ∃ f ∈ ns.filters, f.linkIndex = link.index ∧ f.parent = hook)
    (hall : ∀ f ∈ ns.filters, f.linkIndex = link.index → f.parent = hook → f.rodata = some c) :
    ns.clat link hook = some c := by
  obtain ⟨f, hf⟩ := hsome
  have hne : ns.filtersOf link hook ≠ [] := List.ne_nil_of_mem (mem_filtersOf.mpr hf)
  have hhead := List.head_mem hne
  obtain ⟨hmem, hindex, hparent⟩ := mem_filtersOf.mp hhead
  rw [Netns.clat, List.head?_eq_some_head hne]
  exact hall _ hmem hindex hparent

/-- Without a qdisc there is no filter. -/
theorem linkIndex_ne (hq : link.index ∉ ns.qdiscs) :
    ∀ f ∈ ns.filters, f.linkIndex ≠ link.index := by
  intro f hf hindex
  have hqdisc := ns.attached f hf
  rw [hindex] at hqdisc
  exact hq hqdisc

/-- The programs of a setup have its constants. -/
theorem rodata_of_mem_installed {s : IPv4Setup} {f : Filter}
    (hin : .filter f ∈ installed w s link c) : f.rodata = some c := by
  simp only [mem_installed, reduceCtorEq, Object.filter.injEq, false_or] at hin
  obtain ⟨hook, rfl⟩ := hin
  rfl

/-- The whole setup has the same program on both hooks. -/
theorem Up.clat {s : IPv4Setup} (hup : Up w s link c ns₀ ns) (hq : link.index ∉ ns₀.qdiscs)
    (hook : Hook) : ns.clat link hook = some c := by
  refine clat_eq_some ⟨bpfFilter w link c hook, ?_, rfl, rfl⟩ fun f hf hindex _ => ?_
  · exact hup.setup (.filter _) (by simp [mem_installed])
  · rcases hup.rest (.filter f) hf with hold | hin
    · exact absurd hindex (linkIndex_ne hq f hold)
    · exact rodata_of_mem_installed hin

/-! ## The pod -/

/-- The constants that an invocation calls for, if the pod is not skipped. -/
def Invocation.constants (i : Invocation) : Option CiliumClat.Constants :=
  match parseConfig i.world i.conf with
  | .error _ => none
  | .ok cfg =>
    match cfg.decide i.conf.prevResult (podNamespace i.args.args) with
    | .error _ => none
    | .ok pod6 => some (cfg.rodata pod6)

theorem Invocation.constants_eq_some_iff {i : Invocation} :
    i.constants = some c ↔
      ∃ cfg res pod6, Decided i.world i.args i.conf cfg res pod6 ∧ c = cfg.rodata pod6 := by
  rw [constants]
  constructor
  · intro hc
    cases hcfg : parseConfig i.world i.conf with
    | error e =>
      rw [hcfg] at hc
      cases hc
    | ok cfg =>
      rw [hcfg] at hc
      dsimp only at hc
      cases hprev : i.conf.prevResult with
      | none =>
        rw [hprev] at hc
        cases hc
      | some res =>
        rw [hprev] at hc
        cases hdec : cfg.decide (some res) (podNamespace i.args.args) with
        | error e =>
          rw [hdec] at hc
          cases hc
        | ok pod6 =>
          rw [hdec] at hc
          cases hc
          exact ⟨cfg, res, pod6, ⟨hcfg, hprev, hdec⟩, rfl⟩
  · rintro ⟨cfg, res, pod6, hd, rfl⟩
    rw [hd.config]
    dsimp only
    rw [hd.prev, hd.pod6]

/-- What happens at a pod. -/
inductive PodEvent
  | command (i : Invocation)
  | packet (a : Arrival)

/-- What becomes of a packet: the program on its hook runs, if there is one. -/
def Netns.pass (ns : Netns) (link : Link) (n : Counter → ℕ) (a : Arrival) : TcAct × State :=
  match ns.clat link a.hook with
  | none => (.ok, a.start n)
  | some c => a.hook.program a.kernel c (a.start n)

/-- The pod: a namespace that commands change and packets run through. -/
def pod (link : Link) (n : Counter → ℕ) : Machine Netns PodEvent (Arrival × TcAct × State) where
  step ns e :=
    match e with
    | .command i => (i.after ns, none)
    | .packet a => (ns, some (a, ns.pass link n a))

/-! ## The translator -/

/-- What a packet meets. -/
inductive Fate
  | passes
  | drops
  | becomes (data : List UInt8)
  deriving DecidableEq, Repr

/-- What a translation makes of a packet that it is for. -/
def Fate.of (out : Except Counter (List UInt8)) : Fate :=
  match out with
  | .ok data => .becomes data
  | .error _ => .drops

/-- What the translation in force makes of a packet. -/
def fate (t : Option CiliumClat.Constants) (a : Arrival) : Fate :=
  match t with
  | none => .passes
  | some c =>
    match a.hook with
    | .egress =>
      if HasEtherType a.skb.data ethPIp then
        Fate.of (egressFrame a.kernel c a.skb.ipSummed a.skb.data)
      else .passes
    | .ingress =>
      if ethHlen + ip6Hlen + fragHlen ≤ a.skb.data.length ∧ ReturnTraffic c a.skb.data then
        Fate.of ((ingressFrame a.kernel c a.skb.ipSummed a.skb.data).map (· true))
      else .passes

/-- What a command does to the translation in force. -/
def Invocation.switch (i : Invocation) (t : Option CiliumClat.Constants) :
    Option CiliumClat.Constants :=
  match i.verb with
  | .add => i.constants.or t
  | .del => none
  | .check => t

/-- **The translator.** -/
def translator : Machine (Option CiliumClat.Constants) PodEvent Fate where
  step t e :=
    match e with
    | .command i => (i.switch t, none)
    | .packet a => (t, some (fate t a))

/-! ## Packets without faults -/

/-- What can be seen of the run over a packet from outside. -/
def observe (a : Arrival) (res : TcAct × State) : Fate :=
  if res.1 = .shot then .drops
  else if res.2.skb.data = a.skb.data then .passes
  else .becomes res.2.skb.data

/-- No helper fails on the packet, and the kernel has read its EtherType. -/
structure Undisturbed (a : Arrival) : Prop where
  reliable : a.kernel.Reliable
  protocol : HasEtherType a.skb.data a.hook.etherTypes.1 →
    a.skb.protocol = bpfHtons a.hook.etherTypes.1

section Observe

variable {a : Arrival} {res : TcAct × State} {n : Counter → ℕ}

theorem observe_of_dropped {key : Counter} (hdrop : Dropped (a.start n) key res) :
    observe a res = .drops := by
  rw [observe, if_pos hdrop.verdict]

theorem observe_of_passed (hpass : Passed (a.start n) res) : observe a res = .passes := by
  have hdata : res.2.skb.data = a.skb.data := hpass.data
  rw [observe, hpass.verdict, if_neg (by decide), if_pos hdata]

/-- A translation shows in the EtherType. -/
theorem observe_of_translated {key : Counter} {proto : UInt16} {out : List UInt8}
    (htr : Translated (a.start n) key proto out res)
    (hold : HasEtherType a.skb.data a.hook.etherTypes.1)
    (hnew : HasEtherType out a.hook.etherTypes.2) : observe a res = .becomes out := by
  have hne : out ≠ a.skb.data := by
    rintro rfl
    cases hhook : a.hook with
    | egress =>
      rw [hhook] at hold hnew
      exact hold.not_ipv6 hnew
    | ingress =>
      rw [hhook] at hold hnew
      exact hnew.not_ipv6 hold
  rw [observe, htr.verdict, if_neg (by decide), htr.data, if_neg hne]

end Observe

/-- **A program is the translation it was loaded for.** -/
theorem observe_program {a : Arrival} (ha : Undisturbed a) (c : CiliumClat.Constants)
    (n : Counter → ℕ) : observe a (a.hook.program a.kernel c (a.start n)) = fate (some c) a := by
  obtain ⟨hook, k, hk, skb⟩ := a
  obtain ⟨hrel, hproto⟩ := ha
  cases hook with
  | egress =>
    show observe _ (clatEgress k c ⟨skb, n, 0⟩) = if HasEtherType skb.data ethPIp then
      Fate.of (egressFrame k c skb.ipSummed skb.data) else .passes
    by_cases hipv4 : HasEtherType skb.data ethPIp
    · rw [if_pos hipv4]
      rcases clatEgress_cases (c := c) (s := ⟨skb, n, 0⟩) hk hipv4 with
        ⟨out, hout, htr⟩ | ⟨key, -, hdrop, herr⟩
      · obtain ⟨hlen, -, -, -, l4, -, rfl⟩ := egressFrame_eq_ok.mp hout
        refine (observe_of_translated (a := ⟨.egress, k, hk, skb⟩) (n := n) htr hipv4
          (hasEtherType_egressHeaders (le_trans (by decide) hlen))).trans ?_
        exact (congrArg Fate.of hout).symm
      · refine (observe_of_dropped (a := ⟨.egress, k, hk, skb⟩) (n := n) hdrop).trans ?_
        exact (congrArg Fate.of (herr ⟨hrel, hproto hipv4⟩)).symm
    · rw [if_neg hipv4, clatEgress_of_not_ipv4 hipv4]
      exact observe_of_passed (n := n) ⟨rfl, rfl, rfl, rfl, rfl⟩
  | ingress =>
    show observe _ (clatIngress k c ⟨skb, n, 0⟩) =
      if ethHlen + ip6Hlen + fragHlen ≤ skb.data.length ∧ ReturnTraffic c skb.data then
        Fate.of ((ingressFrame k c skb.ipSummed skb.data).map (· true)) else .passes
    have hlin : ∀ {m : ℕ} {s' : State}, s'.skb.data = skb.data → m ≤ skb.data.length →
        Linearises k m s' := by
      intro m s' hdata hm
      exact Or.inr (hrel.pullData (by rwa [hdata]))
    rcases clatIngress_cases (c := c) (s := ⟨skb, n, 0⟩) hk (fun _ => hlin rfl)
        (fun _ _ s' hs' => hlin hs'.data) with
      ⟨hpass, hnot⟩ | ⟨hret, hfollows⟩
    · rw [if_neg (hnot trivial)]
      exact observe_of_passed hpass
    · have hipv6 : HasEtherType skb.data ethPIpv6 := ⟨le_trans (by decide) hret.1, hret.2.1⟩
      have hnofault : NoFault k ⟨skb, n, 0⟩ ethPIpv6 := ⟨hrel, hproto hipv6⟩
      rw [if_pos hret]
      rcases hfollows with ⟨out, hout, present, hpresent, htr, -⟩ | ⟨key, -, hdrop, herr⟩
      · obtain rfl := hpresent hnofault
        have hframe : ingressFrame k c skb.ipSummed skb.data = .ok out := hout
        obtain ⟨v, x, -, -, rfl⟩ := ingressFrame_eq_ok.mp hout
        refine (observe_of_translated (a := ⟨.ingress, k, hk, skb⟩) (n := n) htr hipv6
          (hasEtherType_ingressHeaders (le_trans (by decide) hret.1))).trans ?_
        rw [hframe]
        rfl
      · have hframe : ingressFrame k c skb.ipSummed skb.data = .error key := herr hnofault
        rw [hframe]
        exact observe_of_dropped (n := n) hdrop

/-! ## Commands without faults -/

theorem Config.Alike.refl (cfg : Config) : cfg.Alike cfg := ⟨rfl, rfl⟩

/-- A namespace that is fresh to one configuration is fresh to all that are alike. -/
theorem Fresh.of_alike {h' : Host} (hw : h.Works) (hw' : h'.Works) (halike : cfg.Alike cfg')
    (hf : Fresh h args cfg link ns₀) : Fresh h' args cfg' link ns₀ where
  mem := hf.mem
  name := hf.name
  none := by
    rw [halike.setup_eq, hw'.inspect_eq_none_iff]
    exact hw.inspect_eq_none_iff.mp hf.none
  qdisc := hf.qdisc

theorem Worn.of_alike (halike : cfg.Alike cfg') (hworn : Worn cfg link ns₀ ns) :
    Worn cfg' link ns₀ ns := by
  refine ⟨hworn.links, fun o ho => (hworn.rest o ho).imp_right ?_⟩
  rintro ⟨w, peer, rodata, hin⟩
  rw [← halike.setup_eq] at hin
  exact ⟨w, peer, rodata, hin⟩

/-- A command that meets no fault, for the pod interface, under a configuration that sets up the pod
as `cfg` does, and with a peer to be found. -/
structure Invocation.Sound (args : CmdArgs) (cfg : Config) (link : Link) (i : Invocation) :
    Prop where
  works : i.host.Works
  args_eq : i.args = args
  config : ∃ cfg', parseConfig i.world i.conf = .ok cfg' ∧ cfg.Alike cfg'
  peer : ∀ res ∈ i.conf.prevResult, ∃ peer, peerOf i.world res link args.ifName = some peer

/-- What the pod is trusted with. -/
def PodEvent.Trusted (args : CmdArgs) (cfg : Config) (link : Link) : PodEvent → Prop
  | .command i => i.Sound args cfg link
  | .packet a => Undisturbed a

/-- The namespace and the translator are in the same state: what there is of the setup is the
plugin's, and the programs are those of the translation in force. -/
structure InForce (cfg : Config) (link : Link) (ns₀ ns : Netns)
    (t : Option CiliumClat.Constants) : Prop where
  worn : Worn cfg link ns₀ ns
  clat : ∀ hook, ns.clat link hook = t

theorem InForce.of_fresh (hf : Fresh h args cfg link ns₀) : InForce cfg link ns₀ ns₀ none :=
  ⟨Worn.refl cfg link ns₀, fun _ => clat_eq_none (linkIndex_ne hf.qdisc)⟩

/-- DEL takes the programs off the hooks. -/
theorem Worn.del (hworn : Worn cfg link ns₀ ns) (hw : h.Works) (hf : Fresh h args cfg link ns₀)
    (hcfg : parseConfig w conf = .ok cfg) (hns : args.netns ≠ "") :
    InForce cfg link ns₀ (step w h args conf ns .del) none := by
  have hobjects := objects_step_del hw hcfg hns ((hworn.links link).mpr hf.mem) hf.name
  have hafter : (Invocation.mk .del w h args conf).after ns = step w h args conf ns .del := rfl
  refine ⟨⟨fun l => ?_, fun o ho => ?_⟩, fun hook => clat_eq_none fun f hf hindex => ?_⟩
  · rw [← hafter, Invocation.mem_links_after]
    exact hworn.links l
  · rw [hobjects] at ho
    exact hworn.rest o ho.1
  · have hmem : .filter f ∈ (step w h args conf ns .del).objects := hf
    rw [hobjects] at hmem
    exact hmem.2 (Or.inl hindex)

section Simulation

variable (hw : h.Works) (hf : Fresh h args cfg link ns₀) (hns : args.netns ≠ "")
  (hveth : link.type = "veth") (hgw : cfg.gateway ≠ 0)

include hw hf hns hveth hgw

/-- **A command is a turn of the switch.** -/
theorem InForce.command {t : Option CiliumClat.Constants} (hin : InForce cfg link ns₀ ns t)
    {i : Invocation} (hi : i.Sound args cfg link) :
    InForce cfg link ns₀ (i.after ns) (i.switch t) := by
  obtain ⟨hworks, rfl, ⟨cfg', hcfg, halike⟩, hpeer⟩ := hi
  have hf' : Fresh i.host i.args cfg' link ns₀ := hf.of_alike hw hworks halike
  have hworn' := hin.worn.of_alike halike
  rcases hverb : i.verb with _ | _ | _
  · by_cases hd : ∃ cfg res pod6, Decided i.world i.args i.conf cfg res pod6
    · obtain ⟨cfg'', res, pod6, hd⟩ := hd
      cases hcfg.symm.trans hd.config
      obtain ⟨peer, hpeer⟩ := hpeer res hd.prev
      have hup := hworn'.add hworks hf' ⟨hd, hveth, hpeer, halike.2.trans_ne hgw⟩
      have hafter : i.after ns = step i.world i.host i.args i.conf ns .add := by
        rw [Invocation.after, hverb]
        rfl
      have hswitch : i.switch t = some (cfg'.rodata pod6) := by
        rw [Invocation.switch, hverb, Invocation.constants_eq_some_iff.mpr ⟨_, _, _, hd, rfl⟩]
        rfl
      rw [hafter, hswitch]
      refine ⟨?_, hup.clat hf.qdisc⟩
      rw [halike.setup_eq] at hup
      exact hup.worn (Config.Alike.refl cfg)
    · have hafter : i.after ns = ns := by
        rw [Invocation.after, hverb]
        exact cmdAdd_of_not_decided hd
      have hnone : i.constants = none := by
        rw [← Option.not_isSome_iff_eq_none, Option.isSome_iff_exists]
        rintro ⟨c, hc⟩
        obtain ⟨cfg, res, pod6, hd', -⟩ := Invocation.constants_eq_some_iff.mp hc
        exact hd ⟨cfg, res, pod6, hd'⟩
      rw [hafter, Invocation.switch, hverb, hnone]
      exact hin
  · have hafter : i.after ns = step i.world i.host i.args i.conf ns .del := by
      rw [Invocation.after, hverb]
      rfl
    have hdel := hworn'.del hworks hf' hcfg hns
    rw [hafter, Invocation.switch, hverb]
    exact ⟨hdel.worn.of_alike ⟨halike.1.symm, halike.2.symm⟩, hdel.clat⟩
  · have hafter : i.after ns = ns := by
      rw [Invocation.after, hverb]
      exact readOnly_cmdCheck _ _ _ _ ns
    rw [hafter, Invocation.switch, hverb]
    exact hin

theorem pod_simulates (n : Counter → ℕ) :
    Simulates (pod link n) translator (PodEvent.Trusted args cfg link) (InForce cfg link ns₀)
      (fun o => observe o.1 o.2) where
  state := by
    intro ns t e hin he
    cases e with
    | command i => exact hin.command hw hf hns hveth hgw he
    | packet a => exact hin
  answer := by
    intro ns t e hin he
    cases e with
    | command i => rfl
    | packet a =>
      refine congrArg some ?_
      show observe a (ns.pass link n a) = fate t a
      rw [Netns.pass, hin.clat a.hook]
      cases t with
      | none => exact observe_of_passed (n := n) ⟨rfl, rfl, rfl, rfl, rfl⟩
      | some c => exact observe_program he c n

/-- **The pod follows the translator.**  The namespace is fresh and the pod interface is a veth.
Let commands and packets come in any order, and no call and no helper fail.  The commands have one
set of CNI arguments, with a namespace path, and configurations that set up the pod in the same way,
with a gateway other than 0.0.0.0; and the peer of the interface is found.  What becomes of the
packets is what the translation in force makes of them. -/
theorem pod_follows_translator (n : Counter → ℕ) (es : List PodEvent)
    (hes : ∀ e ∈ es, e.Trusted args cfg link) :
    ((pod link n).answers ns₀ es).map (fun o => observe o.1 o.2) = translator.answers none es :=
  (pod_simulates hw hf hns hveth hgw n).answers_eq hes (InForce.of_fresh hf)

end Simulation

/-- A TCP segment of the pod. -/
def testSegment : Arrival :=
  ⟨.egress, .reference, Kernel.reference_lawful,
    (testState (testFrame4 0 6 (List.replicate 20 7)) ethPIp).skb⟩

/-- An ADD, a CHECK or a DEL of the pod of the tests. -/
def testCommand (verb : Verb) (h : Host) : Invocation :=
  ⟨verb, testWorld, h, testArgs, testConf⟩

/-- The segment before ADD, after ADD and after DEL. -/
theorem pod_follows_translator_segment :
    let es := [.packet testSegment, .command (testCommand .add testKernel), .packet testSegment,
      .command (testCommand .check testKernel), .command (testCommand .del testKernel),
      .packet testSegment]
    ∃ data, ((pod testLink fun _ => 0).answers testBare es).map (fun o => observe o.1 o.2) =
      [.passes, .becomes data, .passes] := by
  intro es
  have hsound (verb : Verb) : (testCommand verb testKernel).Sound testArgs testConfig testLink :=
    ⟨testKernel_works, rfl, ⟨testConfig, rfl, Config.Alike.refl _⟩, by
      rintro res ⟨⟩
      exact ⟨_, testAdds.peer⟩⟩
  have hsegment : Undisturbed testSegment := ⟨Kernel.reference_reliable, fun _ => rfl⟩
  have hes : ∀ e ∈ es, e.Trusted testArgs testConfig testLink := by
    simp only [es, List.forall_mem_cons, List.not_mem_nil, IsEmpty.forall_iff, implies_true,
      and_true]
    exact ⟨hsegment, hsound .add, hsegment, hsound .check, hsound .del, hsegment⟩
  rw [pod_follows_translator testKernel_works testBare_bare.toFresh (by decide) rfl (by decide) _ es
    hes]
  exact ⟨_, rfl⟩

/-! ## Any faults -/

/-- The frame is a translation of the packet under the constants.  The translation of an ICMPv6
error is given twice, for a checksum in the quoted packet that could be read and for one that could
not (`ingressFrame`). -/
def Yields (c : CiliumClat.Constants) (a : Arrival) (out : List UInt8) : Prop :=
  match a.hook with
  | .egress => egressFrame a.kernel c a.skb.ipSummed a.skb.data = .ok out
  | .ingress => ∃ frame present,
      ingressFrame a.kernel c a.skb.ipSummed a.skb.data = .ok frame ∧ out = frame present

/-- The packet is dropped, or it leaves as a whole translation; and it is counted as such. -/
def Whole (c : CiliumClat.Constants) (a : Arrival) (n : Counter → ℕ) (res : TcAct × State) : Prop :=
  (∃ key, a.hook.isDrop key = true ∧ Dropped (a.start n) key res) ∨
    ∃ out, Yields c a out ∧
      Translated (a.start n) a.hook.translated (bpfHtons a.hook.etherTypes.2) out res

/-- The program on egress lets no IPv4 packet pass, whatever helpers fail. -/
theorem whole_of_ipv4 (c : CiliumClat.Constants) {a : Arrival} (hhook : a.hook = .egress)
    (hipv4 : HasEtherType a.skb.data ethPIp) (n : Counter → ℕ) :
    Whole c a n (a.hook.program a.kernel c (a.start n)) := by
  obtain ⟨hook, k, hk, skb⟩ := a
  obtain rfl : hook = .egress := hhook
  rcases clatEgress_cases (c := c) (s := ⟨skb, n, 0⟩) hk hipv4 with
    ⟨out, hout, htr⟩ | ⟨key, hkey, hdrop, -⟩
  · exact Or.inr ⟨out, hout, htr⟩
  · exact Or.inl ⟨key, hkey, hdrop⟩

/-- Whatever helpers fail, a program does one thing or the other. -/
theorem passed_or_whole (c : CiliumClat.Constants) (a : Arrival) (n : Counter → ℕ) :
    Passed (a.start n) (a.hook.program a.kernel c (a.start n)) ∨
      Whole c a n (a.hook.program a.kernel c (a.start n)) := by
  obtain ⟨hook, k, hk, skb⟩ := a
  cases hook with
  | egress =>
    by_cases hipv4 : HasEtherType skb.data ethPIp
    · exact Or.inr (whole_of_ipv4 c (a := ⟨.egress, k, hk, skb⟩) rfl hipv4 n)
    · refine Or.inl ?_
      show Passed ⟨skb, n, 0⟩ (clatEgress k c ⟨skb, n, 0⟩)
      rw [clatEgress_of_not_ipv4 hipv4]
      exact ⟨rfl, rfl, rfl, rfl, rfl⟩
  | ingress =>
    rcases clatIngress_cases (c := c) (s := ⟨skb, n, 0⟩) hk (False.elim : False → _) False.elim with
      ⟨hpass, -⟩ | ⟨-, ⟨out, hout, present, -, htr, -⟩ | ⟨key, hkey, hdrop, -⟩⟩
    · exact Or.inl hpass
    · exact Or.inr (Or.inr ⟨out present, ⟨out, present, hout, rfl⟩, htr⟩)
    · exact Or.inr (Or.inl ⟨key, hkey, hdrop⟩)

/-- The constants that the ADDs of a run call for. -/
def Called (es : List PodEvent) (c : CiliumClat.Constants) : Prop :=
  ∃ i, .command i ∈ es ∧ i.verb = .add ∧ i.constants = some c

/-- The filters on the pod interface are the plugin's, with constants of the run. -/
structure OwnFilters (link : Link) (es : List PodEvent) (ns : Netns) : Prop where
  mem : link ∈ ns.links
  own : ∀ f ∈ ns.filters, f.linkIndex = link.index → ∃ c, Called es c ∧ f.rodata = some c

theorem OwnFilters.after {es : List PodEvent} (hown : OwnFilters link es ns) {i : Invocation}
    (hi : .command i ∈ es) : OwnFilters link es (i.after ns) := by
  refine ⟨(i.mem_links_after ns link).mpr hown.mem, fun f hf hindex => ?_⟩
  rcases (Invocation.confined_after i.host.confines_not_isLink ns).new (.filter f) hf with
    hold | hnew
  · exact hown.own f hold hindex
  · obtain ⟨hverb, cfg, res, pod6, link', peer, hd, -, -, -, hin⟩ := hnew
    refine ⟨_, ⟨i, hi, hverb, Invocation.constants_eq_some_iff.mpr ⟨cfg, res, pod6, hd, rfl⟩⟩, ?_⟩
    exact rodata_of_mem_installed hin

/-- **No packet is half translated.**  In the beginning there is no qdisc on the pod interface.  Let
commands and packets come in any order, on any hosts, and let any calls and any helpers fail.  A
packet passes as it was, or it is dropped or translated as a whole under the constants of an ADD
that came before it. -/
theorem pod_never_half_translates (hl : link ∈ ns₀.links) (hq : link.index ∉ ns₀.qdiscs)
    (n : Counter → ℕ) (es : List PodEvent) (a : Arrival) :
    let res := ((pod link n).after ns₀ es).pass link n a
    Passed (a.start n) res ∨ ∃ i c, .command i ∈ es ∧ i.verb = .add ∧ i.constants = some c ∧
      Whole c a n res := by
  intro res
  have hown : OwnFilters link es ((pod link n).after ns₀ es) := by
    have hmem : (pod link n).Along (fun _ => (· ∈ es)) ns₀ es := along_of_forall fun _ he => he
    refine after_invariant (I := OwnFilters link es) ?_ hmem
      ⟨hl, fun f hf hindex => absurd hindex (linkIndex_ne hq f hf)⟩
    intro ns e hown he
    cases e with
    | command i => exact hown.after he
    | packet a => exact hown
  have hpass : res = ((pod link n).after ns₀ es).pass link n a := rfl
  rw [hpass, Netns.pass]
  cases hclat : ((pod link n).after ns₀ es).clat link a.hook with
  | none => exact Or.inl ⟨rfl, rfl, rfl, rfl, rfl⟩
  | some c =>
    obtain ⟨f, hf, hindex, -, hrodata⟩ := exists_of_clat hclat
    obtain ⟨c', ⟨i, hi, hverb, hc⟩, hrodata'⟩ := hown.own f hf hindex
    cases hrodata.symm.trans hrodata'
    refine (passed_or_whole c a n).imp_right fun hwhole => ?_
    exact ⟨i, c, hi, hverb, hc, hwhole⟩

/-- ADD cannot attach the second program and cannot clean up: the program on the first hook goes on
translating whole packets. -/
theorem pod_never_half_translates_failed :
    let es := [.command (testCommand .add
      (testHost [.filterReplace .ingress, .qdiscDel, .filterDel (2, .egress, 1, 1)]))]
    let ns := (pod testLink fun _ => 0).after testBare es
    ns.clat testLink .egress ≠ none ∧ ns.clat testLink .ingress = none ∧
      ∃ c, Whole c testSegment (fun _ => 0) (ns.pass testLink (fun _ => 0) testSegment) := by
  intro es ns
  refine ⟨by decide +kernel, by decide +kernel, ?_⟩
  have hmem : testLink ∈ testBare.links := by decide
  have hqdisc : testLink.index ∉ testBare.qdiscs := by decide
  rcases pod_never_half_translates hmem hqdisc (fun _ => 0) es testSegment with
    hpass | ⟨i, c, -, -, -, hwhole⟩
  · exact absurd hpass.protocol (by decide +kernel)
  · exact ⟨c, hwhole⟩

end CiliumClat.Plugin
