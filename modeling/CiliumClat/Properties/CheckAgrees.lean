import CiliumClat.Refinement.Check
import CiliumClat.Properties.FailedSetup

/-!
# CHECK after ADD

ADD may install the setup, skip the pod or start it without a CLAT, and CHECK is to accept all
three.  It takes its decisions from the namespace alone, so what it accepts depends on what ADD
found there: `check_agrees_iff` says when it does.  On a namespace without IPv4 state and without
programs it always does.  On what earlier commands have left it may not:

* a complete ADD leaves default routes under another metric as they are, and CHECK wants the
  plugin's MTU of them; it leaves filters under another priority, and CHECK may pick one of them;
* a failed ADD that starts the pod all the same leaves what undoing does not reach, and CHECK takes
  any of it for a setup that has to be complete.
-/

namespace CiliumClat.Plugin

open KeyedTable EarlyExit

variable {w : World} {h : Host} {args : CmdArgs} {conf : NetConf} {cfg : Config} {res : Result}
  {pod6 : In6Addr} {ns ns' : Netns} {link : Link} {peer : List UInt8}
  {rodata : CiliumClat.Constants}

/-! ## Faults of the setup only -/

/-- The steps of the setup: loading the programs, the address, the neighbour entry, the routes, the
qdisc and the filters. -/
def Call.isSetup : Call → Bool
  | .removeMemlock => true
  | .loadObject => true
  | .setVariable _ => true
  | .loadPrograms => true
  | .addrReplace => true
  | .neighSet => true
  | .routeReplace _ => true
  | .qdiscAdd => true
  | .filterReplace _ => true
  | _ => false

/-- Only steps of the setup fail. -/
def Host.FailsInSetup (h : Host) : Prop :=
  ∀ site c, h.fault site c ≠ none → site = .setup ∧ c.isSetup = true

theorem Host.FailsInSetup.none_of_site (hs : h.FailsInSetup) (site : Site) (hsite : site ≠ .setup)
    (c : Call) : h.fault site c = none := by
  by_contra hne
  exact hsite (hs site c hne).1

theorem Host.FailsInSetup.none_of_call (hs : h.FailsInSetup) (site : Site) {c : Call}
    (hc : c.isSetup = false) : h.fault site c = none := by
  by_contra hne
  exact Bool.false_ne_true (hc.symm.trans (hs site c hne).2)

theorem Host.FailsInSetup.undoWorks (hs : h.FailsInSetup) : h.UndoWorks where
  addrDel := hs.none_of_call .setup rfl
  neighDel := hs.none_of_call .setup rfl
  routeDel _ := hs.none_of_call .setup rfl
  qdiscDel := hs.none_of_call .setup rfl

/-- ADD classifies the namespace as CHECK does. -/
theorem Host.FailsInSetup.inspected (hs : h.FailsInSetup) (args : CmdArgs) (cfg : Config)
    (ns : Netns) :
    ∃ st, Inspected h args cfg ns st ∧
      (st = .foreign ↔ ∃ o ∈ ns.objects, o.Alien args.ifName (cfg.setup []) ns) := by
  have hf := hs.none_of_site .inspect nofun
  obtain ⟨st, hst, hforeign, -⟩ :=
    inspectIPv4_spec hf args.ifName (cfg.setup []) ns
  exact ⟨st, ⟨hf _, hst⟩, hforeign⟩

/-! ## What CHECK sees depends on the links -/

theorem Object.alien_congr {s : IPv4Setup} {ifName : String}
    (hlinks : ∀ l, l ∈ ns'.links ↔ l ∈ ns.links) (o : Object) :
    o.Alien ifName s ns' ↔ o.Alien ifName s ns := by
  cases o <;> simp only [Object.Alien, hlinks]

theorem Object.ours_congr {s : IPv4Setup} {ifName : String}
    (hlinks : ∀ l, l ∈ ns'.links ↔ l ∈ ns.links) (o : Object) :
    o.Ours ifName s ns' ↔ o.Ours ifName s ns := by
  cases o <;> simp only [Object.Ours, hlinks]

/-! ## After a failed ADD -/

/-- The object makes CHECK look for a whole setup: IPv4 state of the plugin, or a program. -/
def Object.Shows (args : CmdArgs) (cfg : Config) (link : Link) (ns : Netns) (o : Object) : Prop :=
  o.Ours args.ifName (cfg.setup []) ns ∨ ∃ hook f, o = .filter f ∧ ProgramOn link hook f

theorem blank_iff : Blank args cfg link ns ↔ ∀ o ∈ ns.objects, ¬ o.Shows args cfg link ns := by
  constructor
  · rintro hblank o ho (hours | ⟨hook, f, rfl, hprog⟩)
    · exact hblank.ours ⟨o, ho, hours⟩
    · exact hblank.programs hook f ho hprog
  · intro hshows
    refine ⟨?_, fun hook f hf hprog => ?_⟩
    · rintro ⟨o, ho, hours⟩
      exact hshows o ho (Or.inl hours)
    · exact hshows (.filter f) hf (Or.inr ⟨hook, f, rfl, hprog⟩)

/-- CHECK accepts what a failed ADD leaves exactly if undoing has reached all that shows. -/
theorem passes_of_failed (hu : h.UndoWorks)
    (hprep : Prepared w h args cfg res pod6 ns link peer rodata)
    (hobjects : ns'.objects = without (Undone w h args cfg res pod6 ns) ns.objects)
    (halien : ¬ ∃ o ∈ ns.objects, o.Alien args.ifName (cfg.setup []) ns)
    (hopen : cfg.failOpen = true) :
    Passes w args cfg res link ns' ↔
      ∀ o ∈ ns.objects, o.Shows args cfg link ns → Undone w h args cfg res pod6 ns o := by
  have hlinks := mem_links_undone hobjects
  have halien' : ¬ ∃ o ∈ ns'.objects, o.Alien args.ifName (cfg.setup []) ns' := by
    rintro ⟨o, ho, ha⟩
    rw [hobjects] at ho
    exact halien ⟨o, ho.1, (Object.alien_congr hlinks o).mp ha⟩
  have hsetup : ¬ SetUp w args cfg res link ns' := by
    -- the address of the pod is always undone
    intro hsetup
    obtain ⟨peer', -, hconf⟩ := hsetup.configured
    have haddr : .addr ((cfg.setup peer').addr link) ∈ ns'.objects := hconf.addr
    rw [hobjects] at haddr
    refine haddr.2 ⟨link, peer, rodata, hprep, ?_⟩
    by_cases hdone : ∃ x ∈ h.done ((cfg.setup peer).steps link),
        (Object.addr ((cfg.setup peer).addr link)).key = x.key
    · exact Or.inl hdone
    · have hmem : .addr ((cfg.setup peer).addr link) ∈
          putAll Object.key (h.done ((cfg.setup peer).steps link)) ns.objects :=
        (mem_putAll nodup_done).mpr (Or.inr ⟨haddr.1, fun x hx hkey => hdone ⟨x, hx, hkey⟩⟩)
      exact Or.inr (Or.inl (Or.inr (Or.inr (Or.inr ⟨hu.addrDel, hmem, Or.inl rfl⟩))))
  have hshows (o : Object) : o.Shows args cfg link ns' ↔ o.Shows args cfg link ns := by
    rw [Object.Shows, Object.Shows, Object.ours_congr hlinks]
  rw [Passes, or_iff_right halien', or_iff_left hsetup, and_iff_left hopen, blank_iff, hobjects]
  simp only [hshows]
  exact forall_mem_without

/-! ## After a complete ADD -/

/-- What is in the namespace besides the objects of the plugin does not disturb CHECK: the other
default routes have the MTU of the plugin's, and the other filters that go by the name of the
program have its tag. -/
structure LeftoversFit (w : World) (cfg : Config) (link : Link) (ns : Netns) : Prop where
  routes : ∀ r ∈ ns.routes, r.IsDefault → r.key ≠ ((cfg.setup []).defaultRoute link).key →
    r.mtu = routeMTU link.mtu
  filters : ∀ f ∈ ns.filters, ∀ hook, ProgramOn link hook f →
    f.key ≠ (link.index, hook, filterPriority, 1) → f.tag = w.programTag hook

/-- The pod interface of an ADD that reaches its setup. -/
theorem Prepared.veth (hprep : Prepared w h args cfg res pod6 ns link peer rodata)
    (hf : h.fault .podLink .hostLinkByIndex = none) :
    link.type = "veth" ∧ peerOf w res link args.ifName = some peer := by
  obtain ⟨pl, hpl, hpeer⟩ := hprep.podLink
  obtain ⟨-, l, hl, hveth, rfl⟩ := inspectPodLink_iff.mp (congrArg Prod.fst hpl)
  obtain ⟨-, hmem, hname⟩ := linkByName_eq_ok_iff.mp hl
  obtain ⟨-, hmem', hname'⟩ := linkByName_eq_ok_iff.mp hprep.link
  obtain rfl := ns.names l hmem link hmem' (hname.trans hname'.symm)
  exact ⟨hveth, (peerMAC_iff rfl hf).mp hpeer⟩

section Installed

variable {s : IPv4Setup}
  (hobjects : ns'.objects = putAll Object.key (installed w s link rodata) ns.objects)

include hobjects

theorem mem_links_installed (l : Link) : l ∈ ns'.links ↔ l ∈ ns.links := by
  rw [← link_mem_objects, hobjects, mem_putAll nodup_installed]
  simp [installed, IPv4Setup.steps, filterSteps, Object.key]

theorem mem_addrs_installed (a : IfAddr) : a ∈ ns'.addrs ↔ a = s.addr link ∨ a ∈ ns.addrs := by
  rw [← addr_mem_objects, hobjects, mem_putAll nodup_installed]
  simp only [installed, IPv4Setup.steps, filterSteps, Object.key]
  by_cases ha : a = s.addr link <;> simp [ha]

theorem mem_neighs_installed (n : Neigh) :
    n ∈ ns'.neighs ↔ n = s.neigh link ∨ n ∈ ns.neighs ∧ n.key ≠ (s.neigh link).key := by
  rw [← neigh_mem_objects, hobjects, mem_putAll nodup_installed]
  simp [installed, IPv4Setup.steps, filterSteps, Object.key]

theorem mem_routes_installed (r : Route) :
    r ∈ ns'.routes ↔ r = s.gatewayRoute link ∨ r = s.defaultRoute link ∨
      r ∈ ns.routes ∧ r.key ≠ (s.gatewayRoute link).key ∧ r.key ≠ (s.defaultRoute link).key := by
  rw [← route_mem_objects, hobjects, mem_putAll nodup_installed]
  simp [installed, IPv4Setup.steps, filterSteps, Object.key, or_assoc]

theorem mem_filters_installed (f : Filter) :
    f ∈ ns'.filters ↔ (∃ hook, f = bpfFilter w link rodata hook) ∨
      f ∈ ns.filters ∧ ∀ hook, f.key ≠ (bpfFilter w link rodata hook).key := by
  rw [← filter_mem_objects, hobjects, mem_putAll nodup_installed]
  rw [forall_hook, exists_hook]
  simp [installed, IPv4Setup.steps, filterSteps, Object.key]

end Installed

/-- What no one else has put there is seen as the plugin's. -/
theorem ours_of_not_alien (hl : link ∈ ns.links) (hn : link.name = args.ifName)
    (halien : ¬ ∃ o ∈ ns.objects, o.Alien args.ifName (cfg.setup []) ns) {r : Route}
    (hr : r ∈ ns.routes) (hdef : r.IsDefault) :
    r.gw = some cfg.gateway ∧ r.linkIndex = link.index := by
  by_contra hnot
  refine halien ⟨.route r, hr, hdef, ?_⟩
  rintro ⟨hgw, l, hmem, hindex, hname⟩
  rw [← ns.names l hmem link hl (hname.trans hn.symm)] at hnot
  exact hnot ⟨hgw, hindex.symm⟩

/-- The host route of the gateway looks like a default route exactly if the gateway is 0. -/
theorem gatewayRoute_isDefault_iff {s : IPv4Setup} :
    (s.gatewayRoute link).IsDefault ↔ s.gateway = 0 := by
  constructor
  · intro hdef
    exact hdef _ rfl
  · rintro hzero p ⟨⟩
    exact hzero

theorem defaultRoute_isDefault {s : IPv4Setup} : (s.defaultRoute link).IsDefault := by
  rintro p ⟨⟩
  rfl

/-- A default route is not the gateway's, unless the gateway is 0. -/
theorem dst_ne_of_isDefault {s : IPv4Setup} (hgw : s.gateway ≠ 0) {r : Route}
    (hdef : r.IsDefault) : r.dst ≠ some (hostRoute s.gateway) := by
  intro hdst
  exact hgw (hdef _ hdst)

theorem key_ne_of_isDefault {s : IPv4Setup} (hgw : s.gateway ≠ 0) {r : Route}
    (hdef : r.IsDefault) : r.key ≠ (s.gatewayRoute link).key := by
  intro hkey
  have hdst : r.dst.getD ⟨0, 0⟩ = hostRoute s.gateway := congrArg Prod.fst hkey
  cases hr : r.dst with
  | none =>
    rw [hr] at hdst
    exact hgw (congrArg Prefix4.addr hdst).symm
  | some p =>
    rw [hr] at hdst
    exact dst_ne_of_isDefault hgw hdef (hr.trans (congrArg some hdst))

section Complete

variable (hl : link ∈ ns.links) (hn : link.name = args.ifName)
  (hobjects : ns'.objects =
    putAll Object.key (installed w (cfg.setup peer) link rodata) ns.objects)
  (halien : ¬ ∃ o ∈ ns.objects, o.Alien args.ifName (cfg.setup []) ns)

include hl hn hobjects halien

/-- After a complete ADD, CHECK sees a foreign object only in a gateway route to 0. -/
theorem alien_installed_iff :
    (∃ o ∈ ns'.objects, o.Alien args.ifName (cfg.setup []) ns') ↔ cfg.gateway = 0 := by
  have hlinks := mem_links_installed hobjects
  constructor
  · rintro ⟨o, ho, ha⟩
    rw [Object.alien_congr hlinks] at ha
    cases o with
    | addr a =>
      rcases (mem_addrs_installed hobjects a).mp ho with rfl | hmem
      · obtain ⟨l, hmem, -, hindex, hnot⟩ := ha
        rw [← Table.eq_of_key hl hmem hindex] at hnot
        exact absurd ⟨hn, rfl⟩ hnot
      · exact absurd ⟨.addr a, hmem, ha⟩ halien
    | route r =>
      rcases (mem_routes_installed hobjects r).mp ho with rfl | rfl | ⟨hmem, -⟩
      · exact gatewayRoute_isDefault_iff.mp ha.1
      · exact absurd ⟨rfl, link, hl, rfl, hn⟩ ha.2
      · exact absurd ⟨.route r, hmem, ha⟩ halien
    | _ => exact ha.elim
  · intro hzero
    refine ⟨.route ((cfg.setup peer).gatewayRoute link),
      (mem_routes_installed hobjects _).mpr (Or.inl rfl), gatewayRoute_isDefault_iff.mpr hzero, ?_⟩
    rintro ⟨hgw, -⟩
    nomatch hgw

theorem configured_installed_iff (hgw : cfg.gateway ≠ 0) :
    Configured (cfg.setup peer) link ns' ↔
      ∀ r ∈ ns.routes, r.IsDefault → r.key ≠ ((cfg.setup []).defaultRoute link).key →
        r.mtu = routeMTU link.mtu := by
  constructor
  · intro hconf r hr hdef hkey
    have hmem := (mem_routes_installed hobjects r).mpr
      (Or.inr (Or.inr ⟨hr, key_ne_of_isDefault hgw hdef, hkey⟩))
    exact (hconf.defaults r hmem (ours_of_not_alien hl hn halien hr hdef).2
      (dst_ne_of_isDefault hgw hdef) hdef).2
  · intro hroutes
    have hdefault : (cfg.setup peer).defaultRoute link ∈ ns'.routes :=
      (mem_routes_installed hobjects _).mpr (Or.inr (Or.inl rfl))
    refine ⟨(mem_addrs_installed hobjects _).mpr (Or.inl rfl),
      (mem_neighs_installed hobjects _).mpr (Or.inl rfl),
      ⟨_, (mem_routes_installed hobjects _).mpr (Or.inl rfl), rfl, rfl⟩,
      ⟨_, hdefault, rfl, dst_ne_of_isDefault hgw defaultRoute_isDefault, defaultRoute_isDefault⟩,
      fun r hr _ hdst hdef => ?_⟩
    rcases (mem_routes_installed hobjects r).mp hr with rfl | rfl | ⟨hmem, -, hkey⟩
    · exact absurd rfl hdst
    · exact ⟨rfl, rfl⟩
    · exact ⟨(ours_of_not_alien hl hn halien hmem hdef).1, hroutes r hmem hdef hkey⟩

omit hl hn halien in
theorem attached_installed_iff :
    Attached w link ns' ↔ ∀ f ∈ ns.filters, ∀ hook, ProgramOn link hook f →
      f.key ≠ (link.index, hook, filterPriority, 1) → f.tag = w.programTag hook := by
  have hown (hook : Hook) : ProgramOn link hook (bpfFilter w link rodata hook) := by
    cases hook <;> exact ⟨⟨rfl, rfl⟩, rfl⟩
  constructor
  · intro hatt f hf hook hprog hkey
    refine (hatt hook).2 f ((mem_filters_installed hobjects f).mpr (Or.inr ⟨hf, ?_⟩)) hprog
    intro hook' hkey'
    -- a filter on another hook has another key
    have hhook : hook' = hook := by
      rw [← hprog.1.2]
      exact (congrArg (fun key => key.2.1) hkey').symm
    subst hhook
    exact hkey hkey'
  · intro hfilters hook
    refine ⟨⟨_, (mem_filters_installed hobjects _).mpr (Or.inl ⟨hook, rfl⟩), hown hook⟩, ?_⟩
    intro f hf hprog
    rcases (mem_filters_installed hobjects f).mp hf with ⟨hook', rfl⟩ | ⟨hmem, hkey⟩
    · have hhook : hook' = hook := hprog.1.2
      subst hhook
      rfl
    · exact hfilters f hmem hook hprog (hkey hook)

/-- CHECK accepts what a complete ADD leaves exactly if the leftovers fit; or if the gateway is 0,
for then it takes the plugin's own route for someone else's. -/
theorem passes_of_installed (hveth : link.type = "veth")
    (hpeer : peerOf w res link args.ifName = some peer) :
    Passes w args cfg res link ns' ↔ cfg.gateway = 0 ∨ LeftoversFit w cfg link ns := by
  rw [Passes, alien_installed_iff hl hn hobjects halien]
  by_cases hgw : cfg.gateway = 0
  · exact iff_of_true (Or.inl hgw) (Or.inl hgw)
  rw [or_iff_right hgw, or_iff_right hgw]
  have hblank : ¬ Blank args cfg link ns' := fun hblank =>
    hblank.programs .egress _ ((mem_filters_installed hobjects _).mpr (Or.inl ⟨.egress, rfl⟩))
      ⟨⟨rfl, rfl⟩, rfl⟩
  rw [or_iff_right fun hand => hblank hand.1]
  constructor
  · intro hsetup
    obtain ⟨peer', hpeer', hconf⟩ := hsetup.configured
    cases hpeer.symm.trans hpeer'
    exact ⟨(configured_installed_iff hl hn hobjects halien hgw).mp hconf,
      (attached_installed_iff hobjects).mp hsetup.attached⟩
  · intro hfit
    exact ⟨hveth,
      ⟨peer, hpeer, (configured_installed_iff hl hn hobjects halien hgw).mpr hfit.routes⟩,
      (attached_installed_iff hobjects).mpr hfit.filters⟩

end Complete

/-! ## Agreement -/

/-- What ADD finds in a namespace without foreign IPv4 state is such that CHECK agrees with it. -/
structure Agrees (w : World) (h : Host) (args : CmdArgs) (cfg : Config) (res : Result)
    (pod6 : In6Addr) (ns : Netns) (link : Link) : Prop where
  /-- A complete ADD: what it leaves in place fits. -/
  installed : ∀ peer rodata, Installs w h args cfg res pod6 ns link peer rodata →
    cfg.gateway = 0 ∨ LeftoversFit w cfg link ns
  /-- An ADD that fails in its setup: undoing reaches all that shows. -/
  undone : ∀ peer rodata, Prepared w h args cfg res pod6 ns link peer rodata →
    ¬ Installs w h args cfg res pod6 ns link peer rodata →
    ∀ o ∈ ns.objects, o.Shows args cfg link ns → Undone w h args cfg res pod6 ns o
  /-- An ADD that fails before: there was nothing, or all of it. -/
  early : (¬ ∃ peer rodata, Prepared w h args cfg res pod6 ns link peer rodata) →
    Blank args cfg link ns ∨ SetUp w args cfg res link ns

theorem Prepared.link_eq (hl : link ∈ ns.links) (hn : link.name = args.ifName) {link' : Link}
    (hprep : Prepared w h args cfg res pod6 ns link' peer rodata) : link' = link := by
  obtain ⟨-, hmem, hname⟩ := linkByName_eq_ok_iff.mp hprep.link
  exact ns.names link' hmem link hl (hname.trans hn.symm)

/-- A pod that ADD skips is skipped by CHECK. -/
theorem cmdCheck_of_skipped (hd : ¬ ∃ cfg res pod6, Decided w args conf cfg res pod6) {r : Result}
    (hadd : (exec (cmdAdd w h args conf) ns).1 = .ok r) (h' : Host) :
    (exec (cmdCheck w h' args conf) ns').1 = .ok () := by
  obtain ⟨e, hcfg⟩ | ⟨cfg, hcfg⟩ := error_or_ok (parseConfig w conf)
  · rw [cmdAdd, exec_query_bind_error ns hcfg] at hadd
    cases hadd
  rw [cmdAdd, exec_query_bind_ok ns hcfg] at hadd
  rw [cmdCheck, exec_query_bind_ok ns' hcfg]
  cases hprev : conf.prevResult with
  | none =>
    rw [hprev] at hadd
    cases hadd
  | some res =>
    dsimp only
    cases hdec : cfg.decide (some res) (podNamespace args.args) with
    | error reason => rfl
    | ok pod6 => exact absurd ⟨cfg, res, pod6, hcfg, hprev, hdec⟩ hd

theorem agrees_iff_of_installs (hs : h.FailsInSetup) (hl : link ∈ ns.links)
    (hn : link.name = args.ifName)
    (halien : ¬ ∃ o ∈ ns.objects, o.Alien args.ifName (cfg.setup []) ns)
    (hinst : Installs w h args cfg res pod6 ns link peer rodata)
    (hobjects : ns'.objects =
      putAll Object.key (installed w (cfg.setup peer) link rodata) ns.objects) :
    Passes w args cfg res link ns' ↔ Agrees w h args cfg res pod6 ns link := by
  obtain ⟨hveth, hpeer⟩ := hinst.prepared.veth (hs.none_of_site .podLink nofun _)
  rw [passes_of_installed hl hn hobjects halien hveth hpeer]
  constructor
  · intro hfit
    refine ⟨fun _ _ _ => hfit, fun peer' rodata' hprep hnot => ?_, fun hnot => ?_⟩
    · obtain ⟨-, rfl, rfl⟩ := hinst.prepared.unique hprep
      exact absurd hinst hnot
    · exact absurd ⟨peer, rodata, hinst.prepared⟩ hnot
  · intro hagrees
    exact hagrees.installed peer rodata hinst

theorem agrees_iff_of_failed (hs : h.FailsInSetup)
    (halien : ¬ ∃ o ∈ ns.objects, o.Alien args.ifName (cfg.setup []) ns)
    (hprep : Prepared w h args cfg res pod6 ns link peer rodata)
    (hfail : ¬ Installs w h args cfg res pod6 ns link peer rodata)
    (hobjects : ns'.objects = without (Undone w h args cfg res pod6 ns) ns.objects)
    (hopen : cfg.failOpen = true) :
    Passes w args cfg res link ns' ↔ Agrees w h args cfg res pod6 ns link := by
  rw [passes_of_failed hs.undoWorks hprep hobjects halien hopen]
  constructor
  · intro hundone
    refine ⟨fun peer' rodata' hinst => ?_, fun _ _ _ _ => hundone, fun hnot => ?_⟩
    · obtain ⟨-, rfl, rfl⟩ := hprep.unique hinst.prepared
      exact absurd hinst hfail
    · exact absurd ⟨peer, rodata, hprep⟩ hnot
  · intro hagrees
    exact hagrees.undone peer rodata hprep hfail

theorem agrees_iff_of_early
    (halien : ¬ ∃ o ∈ ns.objects, o.Alien args.ifName (cfg.setup []) ns)
    (hearly : ¬ ∃ peer rodata, Prepared w h args cfg res pod6 ns link peer rodata)
    (hopen : cfg.failOpen = true) :
    Passes w args cfg res link ns ↔ Agrees w h args cfg res pod6 ns link := by
  rw [Passes, or_iff_right halien, and_iff_left hopen]
  constructor
  · intro hor
    exact ⟨fun peer rodata hinst => absurd ⟨peer, rodata, hinst.prepared⟩ hearly,
      fun peer rodata hprep => absurd ⟨peer, rodata, hprep⟩ hearly, fun _ => hor⟩
  · intro hagrees
    exact hagrees.early hearly

/-- **CHECK and ADD.**  Let the namespace have the pod interface.  If ADD succeeds, whatever steps
of its setup have failed, then CHECK succeeds on what ADD leaves, for every order in which the
kernel may list filters, exactly if the pod is skipped, or holds foreign IPv4 state, or what ADD
found is such that the two agree. -/
theorem check_agrees_iff (hh : h.Lawful) (hs : h.FailsInSetup) (hl : link ∈ ns.links)
    (hn : link.name = args.ifName) {r : Result}
    (hadd : (exec (cmdAdd w h args conf) ns).1 = .ok r) :
    (∀ h' : Host, h'.Checks →
        (exec (cmdCheck w h' args conf) (exec (cmdAdd w h args conf) ns).2).1 = .ok ()) ↔
      ∀ cfg res pod6, Decided w args conf cfg res pod6 →
        (¬ ∃ o ∈ ns.objects, o.Alien args.ifName (cfg.setup []) ns) →
        Agrees w h args cfg res pod6 ns link := by
  by_cases hd : ∃ cfg res pod6, Decided w args conf cfg res pod6
  swap
  · refine iff_of_true (fun h' _ => cmdCheck_of_skipped hd hadd h') ?_
    intro cfg res pod6 hd'
    exact absurd ⟨cfg, res, pod6, hd'⟩ hd
  obtain ⟨cfg, res, pod6, hd⟩ := hd
  have hright : (∀ cfg res pod6, Decided w args conf cfg res pod6 →
      (¬ ∃ o ∈ ns.objects, o.Alien args.ifName (cfg.setup []) ns) →
      Agrees w h args cfg res pod6 ns link) ↔
      ((¬ ∃ o ∈ ns.objects, o.Alien args.ifName (cfg.setup []) ns) →
        Agrees w h args cfg res pod6 ns link) := by
    refine ⟨fun hall => hall cfg res pod6 hd, fun hone cfg' res' pod6' hd' => ?_⟩
    obtain ⟨rfl, rfl, rfl⟩ := hd.unique hd'
    exact hone
  rw [hright]
  obtain ⟨st, hi, hforeign⟩ := hs.inspected args cfg ns
  by_cases halien : ∃ o ∈ ns.objects, o.Alien args.ifName (cfg.setup []) ns
  · have hstate : (exec (cmdAdd w h args conf) ns).2 = ns := by
      rw [hforeign.mpr halien] at hi
      rw [cmdAdd_of_decided hd, addPod_of_foreign hi, exec_printResult_state]
    rw [hstate, cmdCheck_iff hd hl hn]
    exact iff_of_true (Or.inl halien) fun hnot => absurd halien hnot
  rw [imp_iff_right halien]
  have hst : st ≠ .foreign := fun heq => halien (hforeign.mp heq)
  by_cases hinst : ∃ link' peer rodata, Installs w h args cfg res pod6 ns link' peer rodata
  · obtain ⟨link', peer, rodata, hinst⟩ := hinst
    obtain rfl := hinst.prepared.link_eq hl hn
    obtain ⟨ns', hexec, hobjects⟩ := cmdAdd_installed hd hi hst hinst
    rw [hexec, exec_printResult_state,
      cmdCheck_iff hd ((mem_links_installed hobjects _).mpr hl) hn]
    exact agrees_iff_of_installs hs hl hn halien hinst hobjects
  by_cases hprep : ∃ link' peer rodata, Prepared w h args cfg res pod6 ns link' peer rodata
  · obtain ⟨link', peer, rodata, hprep⟩ := hprep
    obtain rfl := hprep.link_eq hl hn
    obtain ⟨err, ns', hexec, hobjects⟩ := cmdAdd_failed hh hs.undoWorks hd hi hst hinst
    rw [hexec] at hadd
    rw [hexec, exec_failOrOpen_state, cmdCheck_iff hd ((mem_links_undone hobjects _).mpr hl) hn]
    exact agrees_iff_of_failed hs halien hprep
      (fun hi => hinst ⟨_, peer, rodata, hi⟩) hobjects (failOpen_of_ok hadd)
  · obtain ⟨err, hexec⟩ := cmdAdd_of_not_prepared hd hi hst hprep
    rw [hexec] at hadd
    rw [hexec, exec_failOrOpen_state, cmdCheck_iff hd hl hn]
    refine agrees_iff_of_early halien ?_ (failOpen_of_ok hadd)
    rintro ⟨peer, rodata, hprep'⟩
    exact hprep ⟨link, peer, rodata, hprep'⟩

theorem testHost_failsInSetup {failing : List Call} (hc : ∀ c ∈ failing, c.isSetup = true) :
    (testHost failing).FailsInSetup := by
  intro site c hfault
  by_cases hfails : site = .setup ∧ c ∈ failing
  · exact ⟨hfails.1, hc c hfails.2⟩
  · exact absurd (if_neg hfails) hfault

theorem testHost_checks : (testHost []).Checks where
  faults _ _ := if_neg fun hand => nomatch hand.2
  listing _ := List.Perm.refl _
  noQdisc := rfl

/-- The first ADD of a pod, with everything working or with any one step failing. -/
theorem check_agrees_iff_fresh :
    let h := testHost [.routeReplace .default]
    let ns := (exec (cmdAdd testWorld h testArgs testConf) testFresh).2
    let ns' := (exec (cmdAdd testWorld (testHost []) testArgs testConf) testFresh).2
    (exec (cmdCheck testWorld (testHost []) testArgs testConf) ns).1 = .ok () ∧
      (exec (cmdCheck testWorld (testHost []) testArgs testConf) ns').1 = .ok () := by
  intro h ns ns'
  have hl : testLink ∈ testFresh.links := by decide
  have hnone : ∀ o ∈ testFresh.objects, ¬ o.Shows testArgs testConfig testLink testFresh := by
    intro o ho hshow
    cases o with
    | link l =>
      obtain hours | ⟨hook, f, heq, -⟩ := hshow
      · exact hours.elim
      · nomatch heq
    | qdisc i =>
      obtain hours | ⟨hook, f, heq, -⟩ := hshow
      · exact hours.elim
      · nomatch heq
    | _ => nomatch ho
  have hagrees (k : Host) (res : Result) (pod6 : In6Addr) :
      Agrees testWorld k testArgs testConfig res pod6 testFresh testLink := by
    refine ⟨fun _ _ _ => Or.inr ⟨nofun, nofun⟩, fun _ _ _ _ o ho hshow => ?_, fun _ => ?_⟩
    · exact absurd hshow (hnone o ho)
    · exact Or.inl (blank_iff.mpr hnone)
  have hcheck (k : Host) (hk : k.Lawful) (hs : k.FailsInSetup) {r : Result}
      (hadd : (exec (cmdAdd testWorld k testArgs testConf) testFresh).1 = .ok r) :
      (exec (cmdCheck testWorld (testHost []) testArgs testConf)
        (exec (cmdAdd testWorld k testArgs testConf) testFresh).2).1 = .ok () := by
    refine (check_agrees_iff hk hs hl rfl hadd).mpr ?_ _ testHost_checks
    intro cfg res pod6 hd _
    obtain ⟨res', pod6', hd'⟩ := test_decided
    obtain ⟨rfl, rfl, rfl⟩ := hd'.unique hd
    exact hagrees k res pod6
  exact ⟨hcheck h (testHost_lawful _) (testHost_failsInSetup (by decide)) rfl,
    hcheck (testHost []) (testHost_lawful _) (testHost_failsInSetup nofun) rfl⟩

/-- A default route of an earlier setup, under another metric and with another MTU. -/
def testLeftover : Route where
  linkIndex := 2
  dst := some ⟨0, 0⟩
  gw := some testConfig.gateway
  src := none
  scope := scopeUniverse
  protocol := rtprotStatic
  metric := 100
  mtu := 1400

/-- A second ADD cannot replace the address and starts the pod without it, and CHECK fails for the
programs that are left.  And a complete ADD leaves the other default route as it is, and CHECK fails
for its MTU. -/
theorem check_fails_after_add :
    let h := testHost [.addrReplace]
    let ns := testNetns ⟨[testLeftover], by decide⟩ Table.empty (by decide)
    h.Lawful ∧ h.FailsInSetup ∧ (testHost []).Checks ∧
      (exec (cmdAdd testWorld h testArgs testConf) testInstalled).1.isOk = true ∧
      (exec (cmdCheck testWorld (testHost []) testArgs testConf)
        (exec (cmdAdd testWorld h testArgs testConf) testInstalled).2).1.isOk = false ∧
      (exec (cmdAdd testWorld (testHost []) testArgs testConf) ns).1.isOk = true ∧
      (exec (cmdCheck testWorld (testHost []) testArgs testConf)
        (exec (cmdAdd testWorld (testHost []) testArgs testConf) ns).2).1.isOk = false := by
  intro h ns
  refine ⟨testHost_lawful _, testHost_failsInSetup (by decide), testHost_checks, ?_, ?_, ?_, ?_⟩
  · decide +kernel
  · decide +kernel
  · decide +kernel
  · decide +kernel

end CiliumClat.Plugin
