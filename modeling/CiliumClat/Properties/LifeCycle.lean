import CiliumClat.Refinement.Runs
import CiliumClat.Properties.CheckSound

/-!
# The life of a pod

A pod sees ADD and DEL again and again, and between them the MTU of its interface may change.  At
any time the namespace is in one of two *phases*: it has what was there before the first ADD, or
that and the whole setup, written at some MTU.

* ADD writes the setup for the MTU of now, over one that was written at another.
* DEL builds its request for the default route anew, with the MTU of now, and the kernel deletes
  only a route that agrees with the whole request.  After a change of the MTU there is none, the
  kernel says so, and DEL takes this for a route that is gone already.  It is the last request that
  makes up for it: with the last address of the interface the kernel drops all routes of the
  interface.

So DEL restores the namespace after any such life, and ADD does what it should exactly if it can set
the pod up (`life_cycle_iff`).
-/

namespace CiliumClat.Plugin

open KeyedTable EarlyExit

variable {w : World} {h : Host} {args : CmdArgs} {conf : NetConf} {cfg : Config} {res : Result}
  {pod6 : In6Addr} {ns ns₀ : Netns} {link : Link}

/-! ## Runs -/

/-- The link with the MTU `m`, if it has the name. -/
def Link.setMTU (name : String) (m : ℤ) (l : Link) : Link :=
  if l.name = name then { l with mtu := m } else l

section SetMTU

variable (name : String) (m : ℤ) (l : Link)

theorem Link.setMTU_eq_mtu : ∃ m', l.setMTU name m = { l with mtu := m' } := by
  rw [Link.setMTU]
  split
  · exact ⟨m, rfl⟩
  · exact ⟨l.mtu, rfl⟩

@[simp] theorem Link.index_setMTU : (l.setMTU name m).index = l.index := by
  obtain ⟨m', hm⟩ := l.setMTU_eq_mtu name m
  rw [hm]

@[simp] theorem Link.name_setMTU : (l.setMTU name m).name = l.name := by
  obtain ⟨m', hm⟩ := l.setMTU_eq_mtu name m
  rw [hm]

@[simp] theorem Link.loopback_setMTU : (l.setMTU name m).loopback = l.loopback := by
  obtain ⟨m', hm⟩ := l.setMTU_eq_mtu name m
  rw [hm]

theorem Link.setMTU_setMTU (m' : ℤ) :
    (l.setMTU name m).setMTU name m' = l.setMTU name m' := by
  by_cases hname : l.name = name
  · simp only [Link.setMTU, if_pos hname]
  · simp only [Link.setMTU, if_neg hname]

end SetMTU

/-- The MTU of a link is set. -/
def Netns.setMTU (name : String) (m : ℤ) (ns : Netns) : Netns :=
  { ns with
    links := ns.links.map (Link.setMTU name m) fun l => l.index_setMTU name m
    names := by
      intro l hl l' hl' hname
      obtain ⟨k, hk, rfl⟩ := Table.mem_map.mp hl
      obtain ⟨k', hk', rfl⟩ := Table.mem_map.mp hl'
      rw [Link.name_setMTU, Link.name_setMTU] at hname
      rw [ns.names k hk k' hk' hname] }

/-- What happens to a pod. -/
inductive Op
  | add
  | del
  | setMTU (m : ℤ)
  deriving DecidableEq, Repr

/-- The least MTU that the kernel lets a veth have, `ETH_MIN_MTU`. -/
def ethMinMTU : ℤ := 68

/-- One step in the life of a pod. -/
def step (w : World) (h : Host) (args : CmdArgs) (conf : NetConf) (ns : Netns) : Op → Netns
  | .add => (exec (cmdAdd w h args conf) ns).2
  | .del => (exec (cmdDel w h args conf) ns).2
  | .setMTU m => if ethMinMTU ≤ m then ns.setMTU args.ifName m else ns

/-- A stretch of the life of a pod. -/
def run (w : World) (h : Host) (args : CmdArgs) (conf : NetConf) (ns : Netns) (ops : List Op) :
    Netns :=
  ops.foldl (step w h args conf) ns

/-! ## The kernel -/

/-- A kernel on which no call fails, but for the deletion of what is not there. -/
structure Host.Works (h : Host) : Prop extends h.Lawful where
  faults : ∀ site c, h.fault site c = none

/-- The namespace before the first ADD: `InspectIPv4` finds no IPv4 state, and there is no qdisc on
the pod interface.  There may be neighbour entries, and routes that are no default routes. -/
structure Fresh (h : Host) (args : CmdArgs) (cfg : Config) (link : Link) (ns : Netns) : Prop where
  mem : link ∈ ns.links
  name : link.name = args.ifName
  none : inspectIPv4 h args.ifName (cfg.setup []) ns = .ok .none
  qdisc : link.index ∉ ns.qdiscs

/-- A fresh namespace with nothing of IPv4 on the pod interface, and with no route elsewhere that is
under the key of the gateway route or has the address of the pod as its source. -/
structure Bare (h : Host) (args : CmdArgs) (cfg : Config) (link : Link) (ns : Netns) : Prop
    extends Fresh h args cfg link ns where
  addrs : ∀ a ∈ ns.addrs, a.linkIndex ≠ link.index
  neighs : ∀ n ∈ ns.neighs, n.linkIndex ≠ link.index
  routes : ∀ r ∈ ns.routes, r.linkIndex ≠ link.index ∧ r.src ≠ some cfg.podIPv4.addr ∧
    r.key ≠ ((cfg.setup []).gatewayRoute link).key

/-- ADD is for this pod and can set it up: the pod is not skipped, its interface is a veth with a
peer, and the gateway is not 0.0.0.0. -/
structure Adds (w : World) (args : CmdArgs) (conf : NetConf) (cfg : Config) (link : Link)
    (res : Result) (pod6 : In6Addr) (peer : List UInt8) : Prop where
  decided : Decided w args conf cfg res pod6
  veth : link.type = "veth"
  peer : peerOf w res link args.ifName = some peer
  gateway : cfg.gateway ≠ 0

/-! ## What the MTU does not change -/

section SetMTU

variable {name : String} {m : ℤ}

theorem mem_links_setMTU {l : Link} :
    l ∈ (ns.setMTU name m).links ↔ ∃ l' ∈ ns.links, l'.setMTU name m = l := by
  show l ∈ ns.links.map (Link.setMTU name m) (fun l => l.index_setMTU name m) ↔ _
  exact Table.mem_map

/-- Whatever does not look at the MTU is true of a link exactly if it was before. -/
theorem exists_mem_links_setMTU {P : Link → Prop} (hP : ∀ l, P (l.setMTU name m) ↔ P l) :
    (∃ l ∈ (ns.setMTU name m).links, P l) ↔ ∃ l ∈ ns.links, P l := by
  constructor
  · rintro ⟨l, hl, hPl⟩
    obtain ⟨l', hl', rfl⟩ := mem_links_setMTU.mp hl
    exact ⟨l', hl', (hP l').mp hPl⟩
  · rintro ⟨l, hl, hPl⟩
    exact ⟨_, mem_links_setMTU.mpr ⟨l, hl, rfl⟩, (hP l).mpr hPl⟩

theorem Netns.setMTU_setMTU (m' : ℤ) : (ns.setMTU name m).setMTU name m' = ns.setMTU name m' := by
  have hfun : Link.setMTU name m' ∘ Link.setMTU name m = Link.setMTU name m' :=
    funext fun l => l.setMTU_setMTU name m m'
  have hlinks : ((ns.setMTU name m).setMTU name m').links = (ns.setMTU name m').links := by
    refine Table.ext ?_
    show (ns.links.entries.map _).map _ = _
    rw [List.map_map, hfun]
    rfl
  exact Netns.ext hlinks rfl rfl rfl rfl rfl

/-- Only a link has an MTU. -/
theorem mem_objects_setMTU {o : Object} (ho : ¬ o.IsLink) :
    o ∈ (ns.setMTU name m).objects ↔ o ∈ ns.objects := by
  cases o with
  | link l => exact absurd trivial ho
  | _ => exact Iff.rfl

theorem Object.alien_setMTU {s : IPv4Setup} {ifName : String} (o : Object) :
    o.Alien ifName s (ns.setMTU name m) ↔ o.Alien ifName s ns := by
  cases o with
  | addr a => exact exists_mem_links_setMTU fun l => by simp
  | route r =>
    refine and_congr_right fun _ => not_congr (and_congr_right fun _ => ?_)
    exact exists_mem_links_setMTU fun l => by simp
  | _ => exact Iff.rfl

theorem Object.ours_setMTU {s : IPv4Setup} {ifName : String} (o : Object) :
    o.Ours ifName s (ns.setMTU name m) ↔ o.Ours ifName s ns := by
  cases o with
  | addr a =>
    refine and_congr_right fun _ => ?_
    exact exists_mem_links_setMTU fun l => by simp
  | route r =>
    refine and_congr_right fun _ => and_congr_right fun _ => ?_
    exact exists_mem_links_setMTU fun l => by simp
  | _ => exact Iff.rfl

theorem Object.Alien.not_isLink {s : IPv4Setup} {ifName : String} {o : Object}
    (ha : o.Alien ifName s ns) : ¬ o.IsLink := by
  cases o with
  | link l => exact ha.elim
  | _ => exact not_false

theorem Object.Ours.not_isLink {s : IPv4Setup} {ifName : String} {o : Object}
    (ho : o.Ours ifName s ns) : ¬ o.IsLink := by
  cases o with
  | link l => exact ho.elim
  | _ => exact not_false

end SetMTU

/-! ## Phases -/

/-- What is in the namespace of a pod: the MTU of its interface, and the MTU at which the setup was
written, if it is in place. -/
structure Phase where
  mtu : ℤ
  added : Option ℤ

/-- The namespace is in a phase: it has what was there before the first ADD, and the setup if it is
in place.  Then there was an ADD that could find the peer. -/
structure InPhase (w : World) (args : CmdArgs) (conf : NetConf) (cfg : Config) (peer : List UInt8)
    (rodata : CiliumClat.Constants) (link : Link) (ns₀ : Netns) (p : Phase) (ns : Netns) :
    Prop where
  objects : ∀ o, o ∈ ns.objects ↔ o ∈ (ns₀.setMTU link.name p.mtu).objects ∨
    ∃ m ∈ p.added, o ∈ installed w (cfg.setup peer) { link with mtu := m } rodata
  adds : p.added ≠ none → ∃ res pod6, Decided w args conf cfg res pod6 ∧ link.type = "veth" ∧
    peerOf w res link args.ifName = some peer

/-! ## A fresh namespace -/

theorem Host.Works.failsInSetup (hw : h.Works) : h.FailsInSetup :=
  fun site c hne => absurd (hw.faults site c) hne

theorem Host.Works.inspect_eq_none_iff (hw : h.Works) {ifName : String} {s : IPv4Setup} :
    inspectIPv4 h ifName s ns = .ok .none ↔
      (¬ ∃ o ∈ ns.objects, o.Alien ifName s ns) ∧ ¬ ∃ o ∈ ns.objects, o.Ours ifName s ns := by
  obtain ⟨st, hst, -, hnone⟩ := inspectIPv4_spec (hw.faults .inspect) ifName s ns
  rw [hst, ← hnone, Except.ok.injEq]

namespace Fresh

/-- A fresh namespace is fresh under any MTU. -/
theorem setMTU (hw : h.Works) (hf : Fresh h args cfg link ns₀) (m : ℤ) :
    Fresh h args cfg { link with mtu := m } (ns₀.setMTU link.name m) where
  mem := mem_links_setMTU.mpr ⟨link, hf.mem, if_pos rfl⟩
  name := hf.name
  none := by
    obtain ⟨halien, hours⟩ := hw.inspect_eq_none_iff.mp hf.none
    rw [hw.inspect_eq_none_iff]
    constructor
    · rintro ⟨o, ho, ha⟩
      exact halien ⟨o, (mem_objects_setMTU ha.not_isLink).mp ho, o.alien_setMTU.mp ha⟩
    · rintro ⟨o, ho, hown⟩
      exact hours ⟨o, (mem_objects_setMTU hown.not_isLink).mp ho, o.ours_setMTU.mp hown⟩
  qdisc := hf.qdisc

/-- There is no default route. -/
theorem not_isDefault (hw : h.Works) (hf : Fresh h args cfg link ns₀) {r : Route}
    (hr : r ∈ ns₀.routes) : ¬ r.IsDefault := by
  intro hdef
  obtain ⟨halien, hours⟩ := hw.inspect_eq_none_iff.mp hf.none
  by_cases hown : r.gw = some cfg.gateway ∧
      ∃ l ∈ ns₀.links, l.index = r.linkIndex ∧ l.name = args.ifName
  · exact hours ⟨.route r, hr, hdef, hown⟩
  · exact halien ⟨.route r, hr, hdef, hown⟩

end Fresh

theorem isDefault_of_key {s : IPv4Setup} {r : Route} (hkey : r.key = (s.defaultRoute link).key) :
    r.IsDefault := by
  intro p hp
  have hdst : r.dst.getD ⟨0, 0⟩ = ⟨0, 0⟩ := congrArg Prod.fst hkey
  rw [Option.mem_def.mp hp] at hdst
  exact congrArg Prefix4.addr hdst

namespace Bare

variable {peer : List UInt8} {rodata : CiliumClat.Constants} {o : Object}

theorem setMTU (hw : h.Works) (hb : Bare h args cfg link ns₀) (m : ℤ) :
    Bare h args cfg { link with mtu := m } (ns₀.setMTU link.name m) :=
  { hb.toFresh.setMTU hw m with
    addrs := hb.addrs
    neighs := hb.neighs
    routes := hb.routes }

/-- Nothing is in reach of the plugin. -/
theorem not_claimed (hw : h.Works) (hb : Bare h args cfg link ns₀) (ho : o ∈ ns₀.objects) :
    ¬ o.Claimed (cfg.setup []) link := by
  intro hclaimed
  cases o with
  | link l => exact hclaimed
  | addr a => exact hb.addrs a ho hclaimed.1
  | neigh n => exact hb.neighs n ho hclaimed
  | route r =>
    obtain ⟨hindex, hsrc, hkey⟩ := hb.routes r ho
    rcases hclaimed with hindex' | hsrc' | hgateway | hdefault
    · exact hindex hindex'
    · exact hsrc hsrc'
    · exact hkey hgateway
    · exact hb.not_isDefault hw ho (isDefault_of_key hdefault)
  | qdisc i => exact not_onQdisc hb.qdisc _ ho hclaimed
  | filter f => exact not_onQdisc hb.qdisc _ ho hclaimed

/-- All keys of the plugin are free. -/
theorem key_ne (hw : h.Works) (hb : Bare h args cfg link ns₀) (ho : o ∈ ns₀.objects) :
    ∀ x ∈ installed w (cfg.setup peer) link rodata, o.key ≠ x.key :=
  fun _ hx hkey => hb.not_claimed hw ho (Object.claimed_of_key_installed hx hkey)

/-- DEL finds nothing to delete, whatever else there is. -/
theorem not_removes (hw : h.Works) (hl : h.Linux) (hb : Bare h args cfg link ns₀)
    (ho : o ∈ ns₀.objects) (S : Set Object) : ¬ h.Removes (cfg.setup []) link S o :=
  fun hrem => hb.not_claimed hw ho (Object.claimed_of_removes hl hrem)

end Bare

/-! ## Steps -/

section Steps

variable {peer peer' : List UInt8} {rodata rodata' : CiliumClat.Constants} {p : Phase} {o : Object}

/-- The setups for two peers, at two MTUs and with two builds of the programs, have the same
keys. -/
theorem exists_key_installed {w' : World} {m k : ℤ}
    (ho : o ∈ installed w' (cfg.setup peer') { link with mtu := m } rodata') :
    ∃ x ∈ installed w (cfg.setup peer) { link with mtu := k } rodata, o.key = x.key := by
  rcases mem_installed.mp ho with rfl | rfl | rfl | rfl | rfl | ⟨hook, rfl⟩
  · exact ⟨_, mem_installed.mpr (Or.inl rfl), rfl⟩
  · exact ⟨_, mem_installed.mpr (Or.inr (Or.inl rfl)), rfl⟩
  · exact ⟨_, mem_installed.mpr (Or.inr (Or.inr (Or.inl rfl))), rfl⟩
  · exact ⟨_, mem_installed.mpr (Or.inr (Or.inr (Or.inr (Or.inl rfl)))), rfl⟩
  · exact ⟨_, mem_installed.mpr (Or.inr (Or.inr (Or.inr (Or.inr (Or.inl rfl))))), rfl⟩
  · exact ⟨.filter (bpfFilter w link rodata hook), by simp [mem_installed, bpfFilter], rfl⟩

/-- With the last address of the interface DEL takes out all its routes and neighbour entries. -/
theorem removes_of_last (hw : h.Works) (hl : h.Linux) {s : IPv4Setup}
    (haddr : .addr (s.addr link) ∈ ns.objects)
    (hlast : ∀ a ∈ ns.addrs, a.linkIndex = link.index → a = s.addr link) :
    (∀ r : Route, r.linkIndex = link.index → h.Removes s link ns.objects (.route r)) ∧
      ∀ n : Neigh, n.linkIndex = link.index → h.Removes s link ns.objects (.neigh n) := by
  have hgoes {o : Object} (htakes : (h.flush (ns.addrs.entries.toFinset.erase (s.addr link))
      (s.addr link)).Takes o) : h.Removes s link ns.objects o :=
    Or.inr (Or.inr (Or.inr ⟨hw.faults _ _, haddr, Or.inr ⟨_, fun b => mem_others, htakes⟩⟩))
  have hempties : (h.flush (ns.addrs.entries.toFinset.erase (s.addr link)) (s.addr link)).Empties
      (ns.addrs.entries.toFinset.erase (s.addr link)) link.index := by
    intro b hb hindex
    obtain ⟨hmem, hne⟩ := mem_others.mp hb
    exact absurd (hlast b hmem hindex) hne
  exact ⟨fun r hr => hgoes (hl.flush_empties hempties hr),
    fun n hn => hgoes ((hl.flush_neigh _ _ n).mpr ⟨hn, hempties⟩)⟩

/-- Where no call fails, ADD gets through its setup. -/
theorem Prepared.installs (hw : h.Works)
    (hprep : Prepared w h args cfg res pod6 ns link peer rodata) :
    Installs w h args cfg res pod6 ns link peer rodata :=
  ⟨hprep, fun _ _ => hw.faults _ _, Or.inl (hw.faults _ _), fun _ _ => hw.faults _ _⟩

theorem Adds.prepared (hw : h.Works) (ha : Adds w args conf cfg link res pod6 peer)
    (hl : link ∈ ns.links) (hn : link.name = args.ifName) :
    Prepared w h args cfg res pod6 ns link peer (cfg.rodata pod6) := by
  have hlink (site : Site) : linkByName h site ns args.ifName = .ok link :=
    linkByName_eq_ok_iff.mpr ⟨hw.faults _ _, hl, hn⟩
  have hpl : (exec (inspectPodLink h args) ns).1 =
      .ok ⟨link.hardwareAddr, link.mtu, link.parentIndex⟩ :=
    inspectPodLink_iff.mpr ⟨hw.faults _ _, link, hlink _, ha.veth, rfl⟩
  refine ⟨⟨_, Prod.ext hpl (exec_inspectPodLink_state h args ns), ?_⟩, ?_, hw.faults _ _, hlink _⟩
  · exact (peerMAC_iff rfl (hw.faults _ _)).mpr ha.peer
  · exact load_of_none ha.decided (hw.faults .setup)

theorem objects_step_add (hw : h.Works) (hd : Decided w args conf cfg res pod6)
    (halien : ¬ ∃ o ∈ ns.objects, o.Alien args.ifName (cfg.setup []) ns)
    (hprep : Prepared w h args cfg res pod6 ns link peer rodata) :
    (step w h args conf ns .add).objects =
      putAll Object.key (installed w (cfg.setup peer) link rodata) ns.objects := by
  obtain ⟨st, hi, hforeign⟩ := hw.failsInSetup.inspected args cfg ns
  obtain ⟨ns', hexec, hobjects⟩ :=
    cmdAdd_installed hd hi (fun hst => halien (hforeign.mp hst)) (hprep.installs hw)
  rw [step, hexec, exec_printResult_state, hobjects]

theorem objects_step_del (hw : h.Works) (hcfg : parseConfig w conf = .ok cfg)
    (hns : args.netns ≠ "") (hl : link ∈ ns.links) (hn : link.name = args.ifName) :
    (step w h args conf ns .del).objects =
      without (fun o => OnQdisc link.index o ∨ h.Removes (cfg.setup []) link ns.objects o)
        ns.objects := by
  have hlink : linkByName h .setup ns args.ifName = .ok link :=
    linkByName_eq_ok_iff.mpr ⟨hw.faults _ _, hl, hn⟩
  rcases cmdDel_state w h args conf ns with ⟨cfg', link', hcfg', hr, hstate⟩ | ⟨hnot, -⟩
  · cases hcfg.symm.trans hcfg'
    cases hlink.symm.trans hr.link
    rw [step, hstate, objects_removeIPv4 hw.toLawful, without_congr (removes_detach hw.toLawful),
      objects_detach hw.toLawful (hw.faults _ _), without_without]
  · exact absurd ⟨cfg, link, hcfg, hns, hw.faults _ _, hlink⟩ hnot

/-- DEL does nothing to a bare namespace. -/
theorem Bare.objects_del (hw : h.Works) (hl : h.Linux) (hb : Bare h args cfg link ns₀)
    (hcfg : parseConfig w conf = .ok cfg) (hns : args.netns ≠ "")
    (hobjects : ns.objects = ns₀.objects) : (step w h args conf ns .del).objects = ns₀.objects := by
  have hmem : .link link ∈ ns.objects := hobjects ▸ hb.mem
  rw [objects_step_del hw hcfg hns hmem hb.name, hobjects]
  ext o
  refine ⟨fun ho => ho.1, fun ho => ⟨ho, not_or.mpr ?_⟩⟩
  exact ⟨not_onQdisc hb.qdisc o ho, hb.not_removes hw hl ho _⟩

/-- **DEL undoes a whole setup**, whatever the MTU and the gateway were when it was written: the
address of the pod is the last one of the interface. -/
theorem Bare.objects_del_of_setup {w' : World} {cfg' : Config} {m : ℤ} (hw : h.Works) (hl : h.Linux)
    (hb : Bare h args cfg link ns₀) (hcfg : parseConfig w conf = .ok cfg) (hns : args.netns ≠ "")
    (hpod : cfg.podIPv4 = cfg'.podIPv4)
    (hobjects : ∀ o, o ∈ ns.objects ↔ o ∈ ns₀.objects ∨
      o ∈ installed w' (cfg'.setup peer) { link with mtu := m } rodata) :
    (step w h args conf ns .del).objects = ns₀.objects := by
  have hmem : .link link ∈ ns.objects := (hobjects _).mpr (Or.inl hb.mem)
  have haddr : (cfg.setup []).addr link = (cfg'.setup peer).addr { link with mtu := m } := by
    rw [IPv4Setup.addr, IPv4Setup.addr, Config.setup, Config.setup, hpod]
  have hmine : .addr ((cfg.setup []).addr link) ∈ ns.objects :=
    (hobjects _).mpr (Or.inr (mem_installed.mpr (Or.inl (congrArg Object.addr haddr))))
  obtain ⟨hroutes, hneighs⟩ := removes_of_last hw hl hmine fun a ha hindex => by
    rcases (hobjects (.addr a)).mp ha with hbase | hin
    · exact absurd hindex (hb.addrs a hbase)
    · simp only [mem_installed, reduceCtorEq, Object.addr.injEq, exists_false, or_false] at hin
      exact hin.trans haddr.symm
  rw [objects_step_del hw hcfg hns hmem hb.name]
  ext o
  rw [mem_without, not_or]
  constructor
  · rintro ⟨ho, hon, hrem⟩
    rcases (hobjects o).mp ho with hbase | hin
    · exact hbase
    rcases mem_installed.mp hin with rfl | rfl | rfl | rfl | rfl | ⟨hook, rfl⟩
    · rw [← haddr] at hrem
      exact absurd (Or.inr (Or.inr (Or.inr ⟨hw.faults _ _, hmine, Or.inl rfl⟩))) hrem
    · exact absurd (hneighs _ rfl) hrem
    · exact absurd (hroutes _ rfl) hrem
    · exact absurd (hroutes _ rfl) hrem
    · exact absurd rfl hon
    · exact absurd rfl hon
  · intro ho
    exact ⟨(hobjects o).mpr (Or.inl ho), not_onQdisc hb.qdisc o ho, hb.not_removes hw hl ho _⟩

namespace InPhase

variable (hp : InPhase w args conf cfg peer rodata link ns₀ p ns)

include hp

theorem links (l : Link) : l ∈ ns.links ↔ l ∈ (ns₀.setMTU link.name p.mtu).links := by
  rw [← link_mem_objects, hp.objects]
  simp [mem_installed]

/-- The pod interface of now. -/
theorem mem_links (hw : h.Works) (hb : Bare h args cfg link ns₀) :
    { link with mtu := p.mtu } ∈ ns.links :=
  (hp.links _).mpr (hb.setMTU hw p.mtu).mem

/-- Where the setup is in place, all of it is. -/
theorem mem_of_added {m : ℤ} (hm : p.added = some m)
    (ho : o ∈ installed w (cfg.setup peer) { link with mtu := m } rodata) : o ∈ ns.objects :=
  (hp.objects o).mpr (Or.inr ⟨m, hm, ho⟩)

/-- A default route is the plugin's. -/
theorem of_isDefault (hw : h.Works) (hb : Bare h args cfg link ns₀) (hgw : cfg.gateway ≠ 0)
    {r : Route} (hr : r ∈ ns.routes) (hdef : r.IsDefault) :
    ∃ m ∈ p.added, r = (cfg.setup peer).defaultRoute { link with mtu := m } := by
  rcases (hp.objects (.route r)).mp hr with hbase | ⟨m, hm, hin⟩
  · exact absurd hdef ((hb.setMTU hw p.mtu).not_isDefault hw hbase)
  · simp only [mem_installed, reduceCtorEq, Object.route.injEq, false_or, exists_false,
      or_false] at hin
    rcases hin with rfl | rfl
    · exact absurd (gatewayRoute_isDefault_iff.mp hdef) hgw
    · exact ⟨m, hm, rfl⟩

theorem not_alien (hw : h.Works) (hb : Bare h args cfg link ns₀) (hgw : cfg.gateway ≠ 0) :
    ¬ ∃ o ∈ ns.objects, o.Alien args.ifName (cfg.setup []) ns := by
  rintro ⟨o, ho, ha⟩
  have hl := hp.mem_links hw hb
  cases o with
  | addr a =>
    rcases (hp.objects (.addr a)).mp ho with hbase | ⟨m, -, hin⟩
    · rw [Object.alien_congr hp.links] at ha
      exact (hw.inspect_eq_none_iff.mp (hb.setMTU hw p.mtu).none).1 ⟨_, hbase, ha⟩
    · simp only [mem_installed, reduceCtorEq, Object.addr.injEq, exists_false, or_false] at hin
      subst hin
      obtain ⟨l, hmem, -, hindex, hnot⟩ := ha
      rw [← Table.eq_of_key hl hmem hindex] at hnot
      exact hnot ⟨hb.name, rfl⟩
  | route r =>
    obtain ⟨m, -, rfl⟩ := hp.of_isDefault hw hb hgw ho ha.1
    exact ha.2 ⟨rfl, _, hl, rfl, hb.name⟩
  | _ => exact ha

/-- Where the setup was written at the MTU of now, `CheckIPv4` accepts. -/
theorem configured (hw : h.Works) (hb : Bare h args cfg link ns₀) (hgw : cfg.gateway ≠ 0)
    (hm : p.added = some p.mtu) : Configured (cfg.setup peer) { link with mtu := p.mtu } ns := by
  have haddr : .addr ((cfg.setup peer).addr link) ∈ ns.objects :=
    hp.mem_of_added hm (by simp [mem_installed, IPv4Setup.addr])
  have hneigh : .neigh ((cfg.setup peer).neigh link) ∈ ns.objects :=
    hp.mem_of_added hm (by simp [mem_installed, IPv4Setup.neigh])
  have hgateway : .route ((cfg.setup peer).gatewayRoute link) ∈ ns.objects :=
    hp.mem_of_added hm (by simp [mem_installed, IPv4Setup.gatewayRoute])
  have hdefault : .route ((cfg.setup peer).defaultRoute { link with mtu := p.mtu }) ∈ ns.objects :=
    hp.mem_of_added hm (by simp [mem_installed])
  refine ⟨haddr, hneigh, ⟨_, hgateway, rfl, rfl⟩, ⟨_, hdefault, rfl,
    dst_ne_of_isDefault hgw defaultRoute_isDefault, defaultRoute_isDefault⟩, ?_⟩
  intro r hr _ _ hdef
  obtain ⟨m, hm', rfl⟩ := hp.of_isDefault hw hb hgw hr hdef
  cases hm.symm.trans hm'
  exact ⟨rfl, rfl⟩

/-- A complete setup takes the place of one that is there. -/
theorem put (hw : h.Works) (hb : Bare h args cfg link ns₀) {ns' : Netns}
    (hobjects : ns'.objects = putAll Object.key
      (installed w (cfg.setup peer') { link with mtu := p.mtu } rodata') ns.objects)
    (hd : Decided w args conf cfg res pod6) (hveth : link.type = "veth")
    (hpeer : peerOf w res link args.ifName = some peer') :
    InPhase w args conf cfg peer' rodata' link ns₀ { p with added := some p.mtu } ns' := by
  refine ⟨fun o => ?_, fun _ => ⟨res, pod6, hd, hveth, hpeer⟩⟩
  rw [hobjects, mem_putAll nodup_installed]
  constructor
  · rintro (hin | ⟨ho, hne⟩)
    · exact Or.inr ⟨p.mtu, rfl, hin⟩
    · rcases (hp.objects o).mp ho with hbase | ⟨m, -, hin⟩
      · exact Or.inl hbase
      · obtain ⟨x, hx, hkey⟩ := exists_key_installed hin
        exact absurd hkey (hne x hx)
  · rintro (hbase | ⟨m, ⟨⟩, hin⟩)
    · exact Or.inr ⟨(hp.objects o).mpr (Or.inl hbase), (hb.setMTU hw p.mtu).key_ne hw hbase⟩
    · exact Or.inl hin

theorem add (hw : h.Works) (hb : Bare h args cfg link ns₀)
    (ha : Adds w args conf cfg link res pod6 peer') :
    InPhase w args conf cfg peer' (cfg.rodata pod6) link ns₀ { p with added := some p.mtu }
      (step w h args conf ns .add) := by
  have ha' : Adds w args conf cfg { link with mtu := p.mtu } res pod6 peer' :=
    ⟨ha.decided, ha.veth, ha.peer, ha.gateway⟩
  refine hp.put hw hb ?_ ha.decided ha.veth ha.peer
  exact objects_step_add hw ha.decided (hp.not_alien hw hb ha.gateway)
    (ha'.prepared hw (hp.mem_links hw hb) hb.name)

/-- **DEL restores the namespace**, whatever the MTU was when the setup was written. -/
theorem del (hw : h.Works) (hl : h.Linux) (hb : Bare h args cfg link ns₀)
    (hcfg : parseConfig w conf = .ok cfg) (hns : args.netns ≠ "") :
    InPhase w args conf cfg peer rodata link ns₀ { p with added := none }
      (step w h args conf ns .del) := by
  have hb' := hb.setMTU hw p.mtu
  have hrestored : (step w h args conf ns .del).objects =
      (ns₀.setMTU link.name p.mtu).objects := by
    cases hadded : p.added with
    | none =>
      refine hb'.objects_del hw hl hcfg hns (Set.ext fun o => ?_)
      rw [hp.objects, hadded]
      simp
    | some m =>
      have hobjects (o : Object) : o ∈ ns.objects ↔ o ∈ (ns₀.setMTU link.name p.mtu).objects ∨
          o ∈ installed w (cfg.setup peer) { link with mtu := m } rodata := by
        rw [hp.objects, hadded]
        simp
      exact hb'.objects_del_of_setup hw hl hcfg hns rfl hobjects
  refine ⟨fun o => ?_, fun hne => absurd rfl hne⟩
  rw [hrestored]
  simp

theorem setMTU (hb : Bare h args cfg link ns₀) (m : ℤ) :
    ∃ m', InPhase w args conf cfg peer rodata link ns₀ { p with mtu := m' }
      (step w h args conf ns (.setMTU m)) := by
  rw [step]
  by_cases hm : ethMinMTU ≤ m
  · rw [if_pos hm, ← hb.name]
    refine ⟨m, fun o => ?_, hp.adds⟩
    by_cases hlink : o.IsLink
    · cases o with
      | link l =>
        have htwice : (ns₀.setMTU link.name p.mtu).setMTU link.name m =
            ns₀.setMTU link.name m := Netns.setMTU_setMTU m
        have hlinks : l ∈ (ns.setMTU link.name m).links ↔
            l ∈ (ns₀.setMTU link.name m).links := by
          rw [← htwice, mem_links_setMTU, mem_links_setMTU]
          simp only [hp.links]
        simp [hlinks, mem_installed]
      | _ => exact hlink.elim
    · rw [mem_objects_setMTU hlink, hp.objects, mem_objects_setMTU hlink,
        mem_objects_setMTU hlink]
  · rw [if_neg hm]
    exact ⟨p.mtu, hp⟩

end InPhase

end Steps

/-! ## The life cycle -/

section LifeCycle

variable {peer : List UInt8} {rodata : CiliumClat.Constants} {p : Phase}

end LifeCycle

/-- Linux, with no call failing. -/
def testKernel : Host :=
  testHost []

theorem testKernel_linux : testKernel.Linux :=
  testHost_linux []

theorem testKernel_works : testKernel.Works where
  toLawful := testHost_lawful []
  faults _ _ := by simp [testKernel, testHost]

/-- A pod with its interface and nothing else. -/
def testBare : Netns :=
  { testFresh with
    qdiscs := Table.empty
    attached := nofun }

theorem testBare_bare : Bare testKernel testArgs testConfig testLink testBare where
  mem := by decide
  name := rfl
  none := by decide +kernel
  qdisc := by decide
  addrs := by decide
  neighs := by decide
  routes := by decide

end CiliumClat.Plugin
