import CiliumClat.Properties.CheckAgrees

/-!
# What CHECK vouches for

CHECK reads five kinds of state and returns nothing if all is as it should be.  For addresses,
neighbours and routes it compares what it reads with what ADD would write.  For the programs it
compares tags, by design: a tag is a hash of the instructions of a program, and a build is told from
another by it.  It does not cover the `.rodata`, where the prefix and the addresses are.

So CHECK vouches for the setup but for the constants of the programs (`check_sound`): it accepts
programs that were loaded for another prefix, or for another address of the pod
(`check_passes_with_old_constants`).  And of several filters under the name of a program it looks at
the one that is listed last.
-/

namespace CiliumClat.Plugin

open KeyedTable EarlyExit

variable {w : World} {h : Host} {args : CmdArgs} {conf : NetConf} {cfg : Config} {res : Result}
  {pod6 : In6Addr} {ns ns' : Netns} {link : Link}

/-! ## What CHECK has read -/

/-- The first half of CHECK. -/
theorem checkState_eq_ok {st : IPv4State} {filters : Option Filter × Option Filter}
    (hexec : exec (checkState h args cfg) ns = (.ok (st, filters), ns')) :
    ns' = ns ∧ inspectIPv4 h args.ifName (cfg.setup []) ns = .ok st := by
  rw [checkState, exec_withNetNSPath_eq_ok, exec_query_bind_eq_ok] at hexec
  obtain ⟨-, st', hst, hexec⟩ := hexec
  obtain ⟨link, -, hexec⟩ := exec_query_bind_eq_ok.mp hexec
  obtain ⟨filters', -, hexec⟩ := exec_query_bind_eq_ok.mp hexec
  cases hexec
  exact ⟨rfl, hst⟩

/-- The second half of CHECK: it has read all that ADD would, and both checks have passed. -/
theorem checkSetup_eq_ok (hexec : exec (checkSetup w h args cfg res pod6) ns = (.ok (), ns')) :
    ∃ link peer rodata, Prepared w h args cfg res pod6 ns link peer rodata ∧
      checkIPv4 h link (cfg.setup peer) ns = .ok () ∧
      checkAttached h link (w.programTag .egress) (w.programTag .ingress) ns = .ok () := by
  rw [checkSetup] at hexec
  obtain ⟨pl, ns₁, hpl, hexec⟩ := exec_bind_eq_ok.mp hexec
  obtain rfl : ns = ns₁ := by
    rw [← exec_inspectPodLink_state h args ns, hpl]
  obtain ⟨peer, hpeer, hexec⟩ := exec_query_bind_eq_ok.mp hexec
  obtain ⟨rodata, hload, hexec⟩ := exec_query_bind_eq_ok.mp hexec
  obtain ⟨egressTag, hegress, hexec⟩ := exec_query_bind_eq_ok.mp hexec
  obtain ⟨ingressTag, hingress, hexec⟩ := exec_query_bind_eq_ok.mp hexec
  obtain ⟨henter, hexec⟩ := exec_withNetNSPath_eq_ok.mp hexec
  obtain ⟨link, hlink, hexec⟩ := exec_query_bind_eq_ok.mp hexec
  obtain ⟨_, hipv4, hexec⟩ := exec_query_bind_eq_ok.mp hexec
  obtain ⟨-, htag⟩ := reads_eq_ok_iff.mp hegress
  obtain ⟨-, htag'⟩ := reads_eq_ok_iff.mp hingress
  cases htag
  cases htag'
  exact ⟨link, peer, rodata, ⟨⟨pl, hpl, hpeer⟩, hload, henter, hlink⟩, hipv4,
    congrArg Prod.fst hexec⟩

/-- CHECK on a pod whose IPv4 state is the plugin's. -/
theorem cmdCheck_of_ours (hd : Decided w args conf cfg res pod6)
    (hours : inspectIPv4 h args.ifName (cfg.setup []) ns = .ok .ours)
    (hcheck : (exec (cmdCheck w h args conf) ns).1 = .ok ()) :
    ∃ link peer rodata, Prepared w h args cfg res pod6 ns link peer rodata ∧
      checkIPv4 h link (cfg.setup peer) ns = .ok () ∧
      checkAttached h link (w.programTag .egress) (w.programTag .ingress) ns = .ok () := by
  rw [cmdCheck_of_decided hd] at hcheck
  have hexec : exec (checkPod w h args cfg res pod6) ns =
      (.ok (), (exec (checkPod w h args cfg res pod6) ns).2) := Prod.ext hcheck rfl
  rw [checkPod] at hexec
  obtain ⟨⟨st, filters⟩, ns₁, hstate, hexec⟩ := exec_bind_eq_ok.mp hexec
  obtain ⟨rfl, hst⟩ := checkState_eq_ok hstate
  cases hst.symm.trans hours
  exact checkSetup_eq_ok hexec

/-- What is found on a hook is a program there. -/
theorem attachedFilter_eq_ok (hh : h.Lawful) {site : Site} {hook : Hook} {f : Filter}
    (hf : attachedFilter h site ns link hook = .ok (some f)) :
    f ∈ ns.filters ∧ ProgramOn link hook f := by
  rw [attachedFilter] at hf
  obtain ⟨filters, hlist, hlast⟩ := bind_eq_ok.mp hf
  have hmem := List.mem_of_getLast? (Except.ok.inj hlast)
  rw [List.mem_filter] at hmem
  have hlist' : filterList h site ns link hook = .ok filters := by
    cases hfilters : filterList h site ns link hook with
    | error e =>
      rw [hfilters] at hlist
      cases hlist
    | ok filters' =>
      rw [hfilters] at hlist
      cases hlist
      rfl
  obtain ⟨hfilter, hindex, hparent⟩ := mem_of_filterList hh hlist' f hmem.1
  exact ⟨hfilter, ⟨hindex, hparent⟩, hmem.2⟩

/-- What `CheckAttached` vouches for: on each hook there is a program with the tag. -/
theorem checkAttached_eq_ok (hh : h.Lawful) {tags : Hook → String}
    (hok : checkAttached h link (tags .egress) (tags .ingress) ns = .ok ()) (hook : Hook) :
    ∃ f ∈ ns.filters, ProgramOn link hook f ∧ f.tag = tags hook := by
  rw [checkAttached] at hok
  obtain ⟨⟨egress, ingress⟩, hfilters, hok⟩ := bind_eq_ok.mp hok
  obtain ⟨_, hegress, hingress⟩ := bind_eq_ok.mp hok
  rw [attachedFilters] at hfilters
  obtain ⟨egress', hlist, hfilters⟩ := bind_eq_ok.mp hfilters
  obtain ⟨ingress', hlist', hfilters⟩ := bind_eq_ok.mp hfilters
  cases hfilters
  have hone {hook : Hook} {f : Option Filter} (hf : attachedFilter h .setup ns link hook = .ok f)
      (hcheck : checkFilter link hook (tags hook) f = .ok ()) :
      ∃ f ∈ ns.filters, ProgramOn link hook f ∧ f.tag = tags hook := by
    obtain ⟨f, rfl, htag⟩ := checkFilter_iff.mp hcheck
    obtain ⟨hmem, hprog⟩ := attachedFilter_eq_ok hh hf
    exact ⟨f, hmem, hprog, htag⟩
  cases hook with
  | egress => exact hone hlist hegress
  | ingress => exact hone hlist' hingress

/-! ## Soundness -/

/-- The constants in the `.rodata` of the program of a filter. -/
def Filter.rodata (f : Filter) : Option CiliumClat.Constants :=
  match f.kind with
  | .bpf _ _ prog => prog.rodata
  | .other => none

/-- **CHECK is sound but for the constants.**  If the IPv4 state is the plugin's and CHECK passes,
then it has found the interface, the peer and the constants that ADD would use; the address, the
neighbour entry and the routes are those of ADD; and on each hook there is a program with its
tag. -/
theorem check_sound (hh : h.Lawful) (hd : Decided w args conf cfg res pod6)
    (hours : inspectIPv4 h args.ifName (cfg.setup []) ns = .ok .ours)
    (hcheck : (exec (cmdCheck w h args conf) ns).1 = .ok ()) :
    ∃ link peer rodata, Prepared w h args cfg res pod6 ns link peer rodata ∧
      Configured (cfg.setup peer) link ns ∧
      ∀ hook, ∃ f ∈ ns.filters, ProgramOn link hook f ∧ f.tag = w.programTag hook := by
  obtain ⟨link, peer, rodata, hprep, hipv4, hattached⟩ := cmdCheck_of_ours hd hours hcheck
  exact ⟨link, peer, rodata, hprep, configured_of_checkIPv4 hipv4, checkAttached_eq_ok hh hattached⟩

/-- The constants of the pod of the tests. -/
def testRodata : CiliumClat.Constants where
  clatPrefix := testConfig.clatPrefix
  podIp6 := In6Addr.load [0xfd, 0, 0, 0, 0, 0, 0, 0, 0, 0, 0, 0, 0, 0, 0, 0x0a] 0
  podIp4 := testConfig.podIPv4.addr
  errIp4 := testConfig.errorSource

/-- After a complete ADD, with the same configuration. -/
theorem check_sound_installed :
    ∃ link peer, Configured (testConfig.setup peer) link testInstalled ∧
      ∀ hook, ∃ f ∈ testInstalled.filters, ProgramOn link hook f ∧
        f.tag = testWorld.programTag hook := by
  have hd : ∃ res, Decided testWorld testArgs testConf testConfig res testRodata.podIp6 :=
    ⟨_, rfl, rfl, rfl⟩
  obtain ⟨res, hd⟩ := hd
  have hcheck : (exec (cmdCheck testWorld (testHost []) testArgs testConf) testInstalled).1 =
      .ok () := by decide +kernel
  obtain ⟨link, peer, rodata, -, hconf, hprograms⟩ :=
    check_sound (testHost_lawful []) hd (by decide +kernel) hcheck
  exact ⟨link, peer, hconf, hprograms⟩

/-- The pod of the tests with another IPv6 address. -/
def testMoved : NetConf :=
  { testConf with
    prevResult := some {
      ips := [some [0xfd, 0, 0, 0, 0, 0, 0, 0, 0, 0, 0, 0, 0, 0, 0, 0x0b]]
      interfaces := [] } }

/-- CHECK passes on a pod whose programs were loaded for another address. -/
theorem check_passes_with_old_constants :
    let pod6 := In6Addr.load [0xfd, 0, 0, 0, 0, 0, 0, 0, 0, 0, 0, 0, 0, 0, 0, 0x0b] 0
    (∃ res, Decided testWorld testArgs testMoved testConfig res pod6) ∧
      inspectIPv4 (testHost []) "eth0" (testConfig.setup []) testInstalled = .ok .ours ∧
      (exec (cmdCheck testWorld (testHost []) testArgs testMoved) testInstalled).1 = .ok () ∧
      load testWorld (testHost []) (testConfig.constants pod6) =
        .ok { testRodata with podIp6 := pod6 } ∧
      ∀ hook, ∃ f ∈ testInstalled.filters, ProgramOn testLink hook f ∧
        f.rodata = some testRodata ∧ testRodata.podIp6 ≠ pod6 := by
  intro pod6
  refine ⟨⟨_, rfl, rfl, rfl⟩, by decide +kernel, by decide +kernel, by decide +kernel,
    fun hook => ⟨bpfFilter testWorld testLink testRodata hook, ?_, ?_, rfl, by decide +kernel⟩⟩
  · cases hook <;> decide +kernel
  · cases hook <;> exact ⟨⟨rfl, rfl⟩, rfl⟩

end CiliumClat.Plugin
