import CiliumClat.Properties.Pod

/-!
# Failing closed

By default a pod whose CLAT cannot be set up does not start: ADD fails.  So a pod that does start
has a CLAT, and the administrator relies on more than that: what the pod sends over IPv4 from then
on is translated or dropped, whatever went wrong before and whatever the helpers do.

Between the promise and the packets there is the whole of the component.  ADD has to report an error
wherever a call of its setup fails (`cmdAdd_ok`); the namespace may be worn by earlier commands, and
the setup has to be whole nevertheless (`Worn.up_of_ok`); the programs on both hooks have to be
those of this ADD and not of an earlier one (`Up.clat`); and the programs have to be what they were
loaded for.

One thing is asked of the host: that ADD can look around.  `InspectIPv4` takes a route for someone
else's if it cannot find the link of the route, and to a pod with someone else's IPv4 ADD does
nothing and reports success.
-/

namespace CiliumClat.Plugin

open KeyedTable EarlyExit EventMachine

variable {w : World} {h h₀ : Host} {args : CmdArgs} {conf : NetConf} {cfg : Config}
  {res r : Result} {pod6 : In6Addr} {ns ns₀ : Netns} {link : Link}

/-- **ADD does not hide a failure**, unless it is configured to. -/
theorem cmdAdd_ok {st : IPv4State} (hclosed : cfg.failOpen = false)
    (hd : Decided w args conf cfg res pod6) (hi : Inspected h args cfg ns st) (hst : st ≠ .foreign)
    (hok : (exec (cmdAdd w h args conf) ns).1 = .ok r) :
    ∃ link peer rodata, Installs w h args cfg res pod6 ns link peer rodata := by
  have hopen {err : GoError} {ns' : Netns}
      (hfail : (exec (failOrOpen h cfg res err) ns').1 = .ok r) : False :=
    Bool.false_ne_true (hclosed.symm.trans (failOpen_of_ok hfail))
  rw [cmdAdd_of_decided hd, addPod_of_inspected hi hst] at hok
  obtain ⟨link, peer, rodata, hprep, hexec⟩ | ⟨-, e, hexec⟩ :=
    install_cases w h args cfg res pod6 ns
  · rw [hexec] at hok
    obtain ⟨-, e, ns₁, hexec₁, -⟩ | ⟨hc, ns₂, -, ⟨hatt, -⟩ | ⟨-, e, hexec₂⟩⟩ :=
      installSetup_cases w (cfg.setup peer) rodata hprep.enter hprep.link
    · rw [hexec₁] at hok
      exact (hopen hok).elim
    · exact ⟨link, peer, rodata, hprep, hc, hatt⟩
    · rw [hexec₂] at hok
      exact (hopen hok).elim
  · rw [hexec] at hok
    exact (hopen hok).elim

/-- **An ADD that reports success has set up the pod**, and its setup is whole. -/
theorem Worn.up_of_ok (hworn : Worn cfg link ns₀ ns) (hw : h₀.Works)
    (hf : Fresh h₀ args cfg link ns₀) (hgw : cfg.gateway ≠ 0) (hclosed : cfg.failOpen = false)
    (hd : Decided w args conf cfg res pod6) (hinspect : ∀ c, h.fault .inspect c = none)
    (hok : (exec (cmdAdd w h args conf) ns).1 = .ok r) :
    r = res ∧ ∃ peer,
      Up w (cfg.setup peer) link (cfg.rodata pod6) ns₀ (exec (cmdAdd w h args conf) ns).2 := by
  obtain ⟨st, hstate, hforeign, -⟩ := inspectIPv4_spec hinspect args.ifName (cfg.setup []) ns
  have hi : Inspected h args cfg ns st := ⟨hinspect _, hstate⟩
  have hst : st ≠ .foreign := fun heq => hworn.not_alien hw hf hgw (hforeign.mp heq)
  obtain ⟨link', peer, rodata, hinst⟩ := cmdAdd_ok hclosed hd hi hst hok
  -- the interface is the pod's, and the constants are those of the configuration
  obtain ⟨-, hl, hn⟩ := linkByName_eq_ok_iff.mp hinst.prepared.link
  obtain rfl := ns.names link' hl link ((hworn.links link).mpr hf.mem) (hn.trans hf.name.symm)
  obtain rfl := load_eq_ok hd hinst.prepared.load
  obtain ⟨ns', hexec, hobjects⟩ := cmdAdd_installed hd hi hst hinst
  rw [hexec] at hok ⊢
  refine ⟨?_, peer, hworn.up_of_objects hobjects⟩
  have hprint : reads h .setup .printResult (.ok res) = .ok r := hok
  exact (Except.ok.inj (reads_eq_ok_iff.mp hprint).2).symm

/-- Packets and CHECKs leave the namespace alone. -/
theorem after_of_checks {n : Counter → ℕ} {es : List PodEvent}
    (hes : ∀ i, .command i ∈ es → i.verb = .check) (ns : Netns) :
    (pod link n).after ns es = ns := by
  have hmem : (pod link n).Along (fun _ => (· ∈ es)) ns es := along_of_forall fun _ he => he
  refine after_invariant (I := (· = ns)) ?_ hmem rfl
  rintro ns' e rfl he
  cases e with
  | command i =>
    show i.after ns' = ns'
    rw [Invocation.after, hes i he]
    exact readOnly_cmdCheck _ _ _ _ ns'
  | packet a => rfl

/-- **Failing closed.**  Let any commands for the pod interface run on a fresh namespace, on any
hosts and with any faults, under configurations that set up the pod in the same way, with a gateway
other than 0.0.0.0; and then an ADD that is not to fail open, with faults anywhere but in its
inspection of the namespace.  If it reports success then, until the next ADD or DEL and whatever
helpers fail, every IPv4 packet of the pod is dropped or translated as a whole under the constants
of this ADD; and what meets no failing helper, at either hook, is what the translation under these
constants makes of it. -/
theorem fail_closed (hw : h₀.Works) (hf : Fresh h₀ args cfg link ns₀) (hgw : cfg.gateway ≠ 0)
    (is : List Invocation) (his : ∀ i ∈ is, i.Repeats args cfg)
    (hclosed : cfg.failOpen = false) (hd : Decided w args conf cfg res pod6)
    (hinspect : ∀ c, h.fault .inspect c = none)
    (hok : (exec (cmdAdd w h args conf) (invoke ns₀ is)).1 = .ok r) (n : Counter → ℕ)
    (es : List PodEvent) (hes : ∀ i, .command i ∈ es → i.verb = .check) (a : Arrival) :
    let ns := (pod link n).after (exec (cmdAdd w h args conf) (invoke ns₀ is)).2 es
    r = res ∧
      (a.hook = .egress → HasEtherType a.skb.data ethPIp →
        Whole (cfg.rodata pod6) a n (ns.pass link n a)) ∧
      (Undisturbed a → observe a (ns.pass link n a) = fate (some (cfg.rodata pod6)) a) := by
  intro ns
  have hworn := worn_invoke hf is his
  obtain ⟨hr, peer, hup⟩ := hworn.up_of_ok hw hf hgw hclosed hd hinspect hok
  have hpass : ns.pass link n a =
      a.hook.program a.kernel (cfg.rodata pod6) (a.start n) := by
    have hns : ns = (exec (cmdAdd w h args conf) (invoke ns₀ is)).2 := after_of_checks hes _
    rw [hns, Netns.pass, hup.clat hf.qdisc]
  rw [hpass]
  exact ⟨hr, fun hhook hipv4 => whole_of_ipv4 _ hhook hipv4 n,
    fun ha => observe_program ha _ n⟩

/-- An ADD cannot attach the second program and cannot clean up.  The next one can, and although it
could not have cleaned up either, the pod is translated from then on. -/
theorem fail_closed_segment :
    let conf : NetConf := { testConf with failOpen := false }
    let cfg : Config := { testConfig with failOpen := false }
    let is : List Invocation :=
      [⟨.add, testWorld, testHost [.filterReplace .ingress, .addrDel, .qdiscDel], testArgs, conf⟩]
    let ns := (exec (cmdAdd testWorld (testHost [.addrDel]) testArgs conf) (invoke testBare is)).2
    Whole (cfg.rodata (In6Addr.load [0xfd, 0, 0, 0, 0, 0, 0, 0, 0, 0, 0, 0, 0, 0, 0, 0x0a] 0))
      testSegment (fun _ => 0) (ns.pass testLink (fun _ => 0) testSegment) := by
  intro conf cfg is ns
  have halike : testConfig.Alike cfg := ⟨rfl, rfl⟩
  have hf := testBare_bare.of_alike testKernel_works testKernel_works halike
  have his : ∀ i ∈ is, i.Repeats testArgs cfg := by
    intro i hi
    obtain rfl := List.mem_singleton.mp hi
    refine ⟨rfl, ?_⟩
    rintro cfg' ⟨⟩
    exact ⟨rfl, rfl⟩
  have hd : Decided testWorld testArgs conf cfg
      { ips := [some [0xfd, 0, 0, 0, 0, 0, 0, 0, 0, 0, 0, 0, 0, 0, 0, 0x0a]], interfaces := [] }
      (In6Addr.load [0xfd, 0, 0, 0, 0, 0, 0, 0, 0, 0, 0, 0, 0, 0, 0, 0x0a] 0) := ⟨rfl, rfl, rfl⟩
  have hok : (exec (cmdAdd testWorld (testHost [.addrDel]) testArgs conf) (invoke testBare is)).1 =
      .ok { ips := [some [0xfd, 0, 0, 0, 0, 0, 0, 0, 0, 0, 0, 0, 0, 0, 0, 0x0a]]
            interfaces := [] } := by
    decide +kernel
  have hinspect : ∀ c, (testHost [.addrDel]).fault .inspect c = none := by
    intro c
    simp [testHost]
  have h := fail_closed testKernel_works hf (by decide) is his rfl hd hinspect hok (fun _ => 0) []
    (fun i hi => absurd hi List.not_mem_nil) testSegment
  exact h.2.1 rfl (by decide)

end CiliumClat.Plugin
