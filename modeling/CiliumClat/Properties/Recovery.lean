import CiliumClat.Properties.LifeCycle

/-!
# Recovery

The plugin keeps no record of what it has done.  ADD and DEL look at the namespace as they find it,
and what they find may be the work of commands that failed or were killed half-way.  Two things make
up for the missing record.

* No run reaches beyond the pod interface and the keys of the plugin (`commands_confined`): neither
  the faults nor the configurations along the way make a difference to what is elsewhere.
* In a namespace that was fresh, all that runs can add is a part of the setup (`Worn`), as long as
  the pod keeps its address and its gateway; the prefix, the programs and the MAC of the peer may
  change on the way.  If there was nothing in reach of the plugin then the next ADD that meets no
  fault completes that part, the next DEL that meets no fault removes it, and nothing of what went
  wrong before can be told from the outcome (`recovery`).
-/

namespace CiliumClat.Plugin

open KeyedTable EarlyExit

variable {w : World} {h : Host} {args : CmdArgs} {conf : NetConf} {cfg : Config} {res : Result}
  {pod6 : In6Addr} {peer : List UInt8} {ns ns₀ ns' : Netns} {link : Link} {o : Object}
  {rodata : CiliumClat.Constants}

/-- Two configurations set up a pod in the same way: its address and its gateway are the same.  The
prefix, the source of errors and the selection of pods may differ. -/
def Config.Alike (cfg cfg' : Config) : Prop :=
  cfg'.podIPv4 = cfg.podIPv4 ∧ cfg'.gateway = cfg.gateway

theorem Config.Alike.setup_eq {cfg' : Config} (halike : cfg.Alike cfg') (peer : List UInt8) :
    cfg'.setup peer = cfg.setup peer := by
  rw [Config.setup, Config.setup, halike.1, halike.2]

/-- The invocation is for the same interface, under a configuration that sets it up in the same
way. -/
def Invocation.Repeats (i : Invocation) (args : CmdArgs) (cfg : Config) : Prop :=
  i.args.ifName = args.ifName ∧ ∀ cfg', parseConfig i.world i.conf = .ok cfg' → cfg.Alike cfg'

/-- What commands may add to a namespace: parts of the setup. -/
structure Worn (cfg : Config) (link : Link) (ns₀ ns : Netns) : Prop where
  links : ∀ l, l ∈ ns.links ↔ l ∈ ns₀.links
  rest : ∀ o ∈ ns.objects, o ∈ ns₀.objects ∨
    ∃ w peer rodata, o ∈ installed w (cfg.setup peer) link rodata

theorem Worn.refl (cfg : Config) (link : Link) (ns₀ : Netns) : Worn cfg link ns₀ ns₀ :=
  ⟨fun _ => Iff.rfl, fun _ ho => Or.inl ho⟩

theorem worn_invoke (hf : Fresh h args cfg link ns₀) (is : List Invocation)
    (his : ∀ i ∈ is, i.Repeats args cfg) : Worn cfg link ns₀ (invoke ns₀ is) := by
  refine ⟨mem_links_invoke ns₀ is, fun o ho => ?_⟩
  rcases new_invoke ho with hold | ⟨i, hi, -, cfg', res, pod6, link', peer, hd, hl, hn, -, hin⟩
  · exact Or.inl hold
  · obtain ⟨hname, halike⟩ := his i hi
    obtain rfl := ns₀.names link' hl link hf.mem (hn.trans (hname.trans hf.name.symm))
    rw [(halike cfg' hd.config).setup_eq] at hin
    exact Or.inr ⟨i.world, peer, _, hin⟩

/-- What is out of reach of the commands stays. -/
theorem Bare.subset_invoke (hw : h.Works) (hb : Bare h args cfg link ns₀) (is : List Invocation)
    (his : ∀ i ∈ is, i.host.Linux ∧ i.Repeats args cfg) :
    ns₀.objects ⊆ (invoke ns₀ is).objects := by
  intro o ho
  refine (confined_invoke ns₀ is fun i hi => (his i hi).1.confines).keep o ho ?_
  rintro ⟨i, hi, -, cfg', link', hcfg, hl, hn, hclaimed⟩
  obtain ⟨-, hname, halike⟩ := his i hi
  obtain rfl := ns₀.names link' hl link hb.mem (hn.trans (hname.trans hb.name.symm))
  rw [(halike cfg' hcfg).setup_eq] at hclaimed
  exact hb.not_claimed hw ho hclaimed

theorem Worn.not_alien (hworn : Worn cfg link ns₀ ns) (hw : h.Works)
    (hf : Fresh h args cfg link ns₀) (hgw : cfg.gateway ≠ 0) :
    ¬ ∃ o ∈ ns.objects, o.Alien args.ifName (cfg.setup []) ns := by
  rintro ⟨o, ho, ha⟩
  rw [Object.alien_congr hworn.links] at ha
  rcases hworn.rest o ho with hold | ⟨w', peer', rodata, hin⟩
  · exact (hw.inspect_eq_none_iff.mp hf.none).1 ⟨o, hold, ha⟩
  rcases mem_installed.mp hin with rfl | rfl | rfl | rfl | rfl | ⟨hook, rfl⟩
  · obtain ⟨l, hmem, -, hindex, hnot⟩ := ha
    rw [← Table.eq_of_key hf.mem hmem hindex] at hnot
    exact hnot ⟨hf.name, rfl⟩
  · exact ha
  · exact hgw (gatewayRoute_isDefault_iff.mp ha.1)
  · exact ha.2 ⟨rfl, link, hf.mem, rfl, hf.name⟩
  · exact ha
  · exact ha

/-- The namespace has the whole setup, and beyond that nothing new. -/
structure Up (w : World) (s : IPv4Setup) (link : Link) (rodata : CiliumClat.Constants)
    (ns₀ ns : Netns) : Prop where
  links : ∀ l, l ∈ ns.links ↔ l ∈ ns₀.links
  rest : ∀ o ∈ ns.objects, o ∈ ns₀.objects ∨ o ∈ installed w s link rodata
  setup : ∀ o ∈ installed w s link rodata, o ∈ ns.objects

namespace Worn

/-- What an earlier ADD has put in is replaced by the whole setup. -/
theorem of_mem_putAll (hworn : Worn cfg link ns₀ ns)
    (ho : o ∈ putAll Object.key (installed w (cfg.setup peer) link rodata) ns.objects) :
    o ∈ ns₀.objects ∨ o ∈ installed w (cfg.setup peer) link rodata := by
  rw [mem_putAll nodup_installed] at ho
  rcases ho with hin | ⟨ho, hne⟩
  · exact Or.inr hin
  · rcases hworn.rest o ho with hold | ⟨w', peer', rodata', hin⟩
    · exact Or.inl hold
    · obtain ⟨x, hx, hkey⟩ := exists_key_installed (k := link.mtu) hin
      exact absurd hkey (hne x hx)

/-- Whatever part of the setup is there, the whole setup takes its place. -/
theorem up_of_objects (hworn : Worn cfg link ns₀ ns) (hobjects : ns'.objects =
    putAll Object.key (installed w (cfg.setup peer) link rodata) ns.objects) :
    Up w (cfg.setup peer) link rodata ns₀ ns' := by
  refine ⟨fun l => (mem_links_installed hobjects l).trans (hworn.links l), fun o ho => ?_,
    fun o ho => ?_⟩
  · rw [hobjects] at ho
    exact hworn.of_mem_putAll ho
  · rw [hobjects, mem_putAll nodup_installed]
    exact Or.inl ho

/-- ADD completes whatever part of the setup is there. -/
theorem add (hworn : Worn cfg link ns₀ ns) (hw : h.Works) (hf : Fresh h args cfg link ns₀)
    (ha : Adds w args conf cfg link res pod6 peer) :
    Up w (cfg.setup peer) link (cfg.rodata pod6) ns₀ (step w h args conf ns .add) := by
  have hl : link ∈ ns.links := (hworn.links link).mpr hf.mem
  exact hworn.up_of_objects (objects_step_add hw ha.decided (hworn.not_alien hw hf ha.gateway)
    (ha.prepared hw hl hf.name))

end Worn

/-! ## Nothing in reach -/

section Bare

variable (hw : h.Works) (hb : Bare h args cfg link ns₀) (hworn : Worn cfg link ns₀ ns)
  (hbase : ns₀.objects ⊆ ns.objects)

include hw hb hworn hbase

/-- The whole setup, and all that there was. -/
theorem Worn.putAll_installed (w : World) (peer : List UInt8) (rodata : CiliumClat.Constants) :
    putAll Object.key (installed w (cfg.setup peer) link rodata) ns.objects =
      ns₀.objects ∪ {o | o ∈ installed w (cfg.setup peer) link rodata} := by
  refine Set.Subset.antisymm (fun o ho => hworn.of_mem_putAll ho) fun o ho => ?_
  rw [mem_putAll nodup_installed]
  rcases ho with hold | hin
  · exact Or.inr ⟨hbase hold, hb.key_ne hw hold⟩
  · exact Or.inl hin

theorem Worn.objects_add (ha : Adds w args conf cfg link res pod6 peer) :
    (step w h args conf ns .add).objects =
      ns₀.objects ∪ {o | o ∈ installed w (cfg.setup peer) link (cfg.rodata pod6)} := by
  have hl : link ∈ ns.links := (hworn.links link).mpr hb.mem
  rw [objects_step_add hw ha.decided (hworn.not_alien hw hb.toFresh ha.gateway)
    (ha.prepared hw hl hb.name), hworn.putAll_installed hw hb hbase]

omit hb hworn hbase in
/-- DEL takes out what there is of the setup: it was written at the MTU of now. -/
theorem gone_of_installed {w' : World} {S : Set Object} (hS : o ∈ S)
    (ho : o ∈ installed w' (cfg.setup peer) link rodata) :
    OnQdisc link.index o ∨ h.Removes (cfg.setup []) link S o := by
  rcases List.mem_append.mp ho with ho | ho
  · refine Or.inr ?_
    have hu : h.UndoWorks :=
      ⟨hw.faults _ _, hw.faults _ _, fun _ => hw.faults _ _, hw.faults _ _⟩
    have hrem := removes_of_mem_steps hw.toLawful hu ho hS
    exact hrem
  · rw [List.mem_cons, mem_filterSteps] at ho
    exact Or.inl (onQdisc_of_key ho rfl)

/-- DEL removes whatever part of the setup is there. -/
theorem Worn.objects_del (hl : h.Linux) (hcfg : parseConfig w conf = .ok cfg)
    (hns : args.netns ≠ "") : (step w h args conf ns .del).objects = ns₀.objects := by
  rw [objects_step_del hw hcfg hns ((hworn.links link).mpr hb.mem) hb.name]
  ext o
  rw [mem_without, not_or]
  constructor
  · rintro ⟨ho, hon, hrem⟩
    rcases hworn.rest o ho with hold | ⟨w', peer', rodata, hin⟩
    · exact hold
    rcases gone_of_installed hw ho hin with hgone | hgone
    · exact absurd hgone hon
    · exact absurd hgone hrem
  · intro ho
    exact ⟨hbase ho, not_onQdisc hb.qdisc o ho, hb.not_removes hw hl ho _⟩

end Bare

/-- In a fresh namespace nothing disturbs CHECK. -/
theorem Fresh.leftoversFit (hw : h.Works) (hf : Fresh h args cfg link ns₀) :
    LeftoversFit w cfg link ns₀ where
  routes r hr hdef := absurd hdef (hf.not_isDefault hw hr)
  filters f hmem hook hprog := by
    have hqdisc := ns₀.attached f hmem
    rw [hprog.1.1] at hqdisc
    exact absurd hqdisc hf.qdisc

/-- CHECK accepts a bare namespace with the whole setup. -/
theorem checks_of_objects (hw : h.Works) (hb : Bare h args cfg link ns₀)
    (ha : Adds w args conf cfg link res pod6 peer)
    (hup : ns.objects =
      ns₀.objects ∪ {o | o ∈ installed w (cfg.setup peer) link (cfg.rodata pod6)}) :
    ∀ h' : Host, h'.Checks → (exec (cmdCheck w h' args conf) ns).1 = .ok () := by
  -- it is what the first ADD leaves
  have hfresh := Worn.refl cfg link ns₀
  have hobjects : ns.objects =
      putAll Object.key (installed w (cfg.setup peer) link (cfg.rodata pod6)) ns₀.objects := by
    rw [hup, hfresh.putAll_installed hw hb Set.Subset.rfl]
  refine (cmdCheck_iff ha.decided ((mem_links_installed hobjects link).mpr hb.mem) hb.name).mpr ?_
  exact (passes_of_installed hb.mem hb.name hobjects (hfresh.not_alien hw hb.toFresh ha.gateway)
    ha.veth ha.peer).mpr (Or.inr (hb.leftoversFit hw))

/-- **Recovery.**  Let any commands run on a bare namespace, on Linux, each with faults of its own
and with a configuration that sets up the pod in the same way.  A DEL without faults then leaves
exactly what there was, and an ADD without faults what there was and its whole setup, which CHECK
accepts. -/
theorem recovery (hw : h.Works) (hl : h.Linux) (hns : args.netns ≠ "")
    (hb : Bare h args cfg link ns₀) (ha : Adds w args conf cfg link res pod6 peer)
    (is : List Invocation) (his : ∀ i ∈ is, i.host.Linux ∧ i.Repeats args cfg) :
    let ns := invoke ns₀ is
    (step w h args conf ns .del).objects = ns₀.objects ∧
      (step w h args conf ns .add).objects =
        ns₀.objects ∪ {o | o ∈ installed w (cfg.setup peer) link (cfg.rodata pod6)} ∧
      ∀ h' : Host, h'.Checks →
        (exec (cmdCheck w h' args conf) (step w h args conf ns .add)).1 = .ok () := by
  intro ns
  have hworn : Worn cfg link ns₀ ns := worn_invoke hb.toFresh is fun i hi => (his i hi).2
  have hbase : ns₀.objects ⊆ ns.objects := hb.subset_invoke hw is his
  have hadd := hworn.objects_add hw hb hbase ha
  exact ⟨hworn.objects_del hw hb hbase hl ha.decided.config hns, hadd,
    checks_of_objects hw hb ha hadd⟩

/-- The pod of the tests, and its peer. -/
theorem testAdds : Adds testWorld testArgs testConf testConfig testLink
    { ips := [some [0xfd, 0, 0, 0, 0, 0, 0, 0, 0, 0, 0, 0, 0, 0, 0, 0x0a]], interfaces := [] }
    (In6Addr.load [0xfd, 0, 0, 0, 0, 0, 0, 0, 0, 0, 0, 0, 0, 0, 0, 0x0a] 0)
    [0x02, 0, 0, 0, 0, 0x01] :=
  ⟨⟨rfl, rfl, rfl⟩, rfl, rfl, by decide⟩

/-- ADD cannot attach the second program and cannot clean up; an ADD that is not to fail open cannot
load the programs; and the DEL that follows cannot delete the address nor the neighbour entry.  The
next DEL removes all of it. -/
theorem recovery_from_failures :
    let is : List Invocation :=
      [⟨.add, testWorld, testHost [.filterReplace .ingress, .addrDel, .qdiscDel], testArgs,
          testConf⟩,
        ⟨.add, testWorld, testHost [.loadPrograms], testArgs, { testConf with failOpen := false }⟩,
        ⟨.del, testWorld, testHost [.neighDel, .addrDel], testArgs, testConf⟩]
    let ns := invoke testBare is
    .addr ((testConfig.setup []).addr testLink) ∈ ns.objects ∧
      (step testWorld testKernel testArgs testConf ns .del).objects = testBare.objects := by
  intro is ns
  have his : ∀ i ∈ is, i.host.Linux ∧ i.Repeats testArgs testConfig := by
    intro i hi
    simp only [is, List.mem_cons, List.not_mem_nil, or_false] at hi
    rcases hi with rfl | rfl | rfl <;> refine ⟨testHost_linux _, rfl, ?_⟩ <;>
      rintro cfg' ⟨⟩ <;> exact ⟨rfl, rfl⟩
  exact ⟨by decide +kernel,
    (recovery testKernel_works testKernel_linux (by decide) testBare_bare testAdds is his).1⟩

end CiliumClat.Plugin
