import CiliumClat.Properties.Foreign

/-!
# What a failed setup leaves behind

`failOrOpen` starts the pod without a CLAT, on the assumption that what was set up has been undone.
What this ADD itself has put in is undone, at whatever step it fails.  What an earlier ADD has left
need not be: an ADD that fails before its setup undoes nothing at all, and one that fails in
`ConfigureIPv4` leaves the filters.  Routes that no request finds go with the address, if there is
one to delete and the kernel drops them with it.  `failed_setup_clean_iff` says exactly when nothing
of a CLAT is left.
-/

namespace CiliumClat.Plugin

open KeyedTable EarlyExit

variable {w : World} {h : Host} {args : CmdArgs} {conf : NetConf} {cfg : Config} {res : Result}
  {pod6 : In6Addr} {ns : Netns}

/-- The object is part of a CLAT: the pod's IPv4 address on the pod interface, the entry or the host
route of the gateway, a default route via the gateway, or a filter with the name of a program. -/
def Object.IsClat (cfg : Config) (ifName : String) (ns : Netns) : Object → Prop
  | .link _ => False
  | .addr a => a.ipNet = cfg.podIPv4 ∧ ∃ l ∈ ns.links, l.name = ifName ∧ a.linkIndex = l.index
  | .neigh n => n.ip = cfg.gateway
  | .route r => r.key.1 = hostRoute cfg.gateway ∨ r.key.1 = ⟨0, 0⟩ ∧ r.gw = some cfg.gateway
  | .qdisc _ => False
  | .filter f => f.clatName ≠ none

/-- Nothing in the namespace is part of a CLAT. -/
def Clean (cfg : Config) (ifName : String) (ns : Netns) : Prop :=
  ∀ o ∈ ns.objects, ¬ o.IsClat cfg ifName ns

theorem not_undone_link (l : Link) : ¬ Undone w h args cfg res pod6 ns (.link l) := by
  rintro ⟨link, peer, rodata, -, ⟨x, hx, hkey⟩ | hdel | ⟨-, hon⟩⟩
  · rcases mem_steps.mp ((h.done_sublist _).subset hx) with rfl | rfl | rfl | rfl <;> nomatch hkey
  · exact hdel.not_isLink trivial
  · exact hon

theorem mem_links_undone {ns' : Netns}
    (hobjects : ns'.objects = without (Undone w h args cfg res pod6 ns) ns.objects) (l : Link) :
    l ∈ ns'.links ↔ l ∈ ns.links := by
  rw [← link_mem_objects, hobjects, mem_without, and_iff_left (not_undone_link l),
    link_mem_objects]

/-- What is part of a CLAT depends on the links of the namespace only. -/
theorem Object.isClat_congr {ns' : Netns} (hlinks : ∀ l, l ∈ ns'.links ↔ l ∈ ns.links)
    (ifName : String) (o : Object) : o.IsClat cfg ifName ns' ↔ o.IsClat cfg ifName ns := by
  cases o with
  | addr a =>
    refine and_congr_right fun _ => exists_congr fun l => ?_
    rw [hlinks]
  | _ => exact Iff.rfl

/-- **A failed setup.**  If ADD finds nothing foreign in the namespace and then fails, and undoing
works, then it leaves through `failOrOpen`, and nothing of a CLAT is left exactly if undoing reaches
all that was there before. -/
theorem failed_setup_clean_iff (hh : h.Lawful) (hu : h.UndoWorks)
    (hd : Decided w args conf cfg res pod6) {st : IPv4State} (hi : Inspected h args cfg ns st)
    (hst : st ≠ .foreign)
    (hfail : ¬ ∃ link peer rodata, Installs w h args cfg res pod6 ns link peer rodata) :
    (∃ err ns', exec (cmdAdd w h args conf) ns = exec (failOrOpen h cfg res err) ns') ∧
      (Clean cfg args.ifName (exec (cmdAdd w h args conf) ns).2 ↔
        ∀ o ∈ ns.objects, o.IsClat cfg args.ifName ns → Undone w h args cfg res pod6 ns o) := by
  obtain ⟨err, ns', hexec, hobjects⟩ := cmdAdd_failed hh hu hd hi hst hfail
  refine ⟨⟨err, ns', hexec⟩, ?_⟩
  have hclat (o : Object) : o.IsClat cfg args.ifName ns' ↔ o.IsClat cfg args.ifName ns :=
    Object.isClat_congr (mem_links_undone hobjects) _ o
  rw [hexec, exec_failOrOpen_state, Clean, hobjects]
  simp only [hclat]
  exact forall_mem_without

/-- The configuration of the tests, parsed. -/
def testConfig : Config where
  clatPrefix := In6Addr.load [0x00, 0x64, 0xff, 0x9b, 0x00, 0x01, 0, 0, 0, 0, 0, 0, 0, 0, 0, 0] 0
  masked := rfl
  notMapped := rfl
  podIPv4 := ⟨ByteList.load32 [192, 0, 0, 2] 0, 29⟩
  gateway := ByteList.load32 [192, 0, 0, 1] 0
  gateway_ne := by decide
  errorSource := ByteList.load32 [192, 0, 0, 8] 0
  includeNamespaces := []
  excludeNamespaces := []
  failOpen := true

/-- The pod of the tests is not skipped. -/
theorem test_decided : ∃ res pod6, Decided testWorld testArgs testConf testConfig res pod6 :=
  ⟨_, _, rfl, rfl, rfl⟩

/-- The pod before its first ADD. -/
def testFresh : Netns := testNetns Table.empty Table.empty (by decide)

/-- The pod after a complete ADD. -/
def testInstalled : Netns :=
  (exec (cmdAdd testWorld (testHost []) testArgs testConf) testFresh).2

theorem testHost_undoWorks {failing : List Call}
    (hc : ∀ c ∈ failing, c ≠ .addrDel ∧ c ≠ .neighDel ∧ (∀ kind, c ≠ .routeDel kind) ∧
      c ≠ .qdiscDel) : (testHost failing).UndoWorks where
  addrDel := if_neg fun hand => (hc _ hand.2).1 rfl
  neighDel := if_neg fun hand => (hc _ hand.2).2.1 rfl
  routeDel kind := if_neg fun hand => (hc _ hand.2).2.2.1 kind rfl
  qdiscDel := if_neg fun hand => (hc _ hand.2).2.2.2 rfl

/-- The first ADD fails at its last route, and leaves nothing. -/
theorem failed_setup_clean_iff_route :
    let h := testHost [.routeReplace .default]
    Inspected h testArgs testConfig testFresh .none ∧
      Clean testConfig "eth0" (exec (cmdAdd testWorld h testArgs testConf) testFresh).2 := by
  intro h
  have hi : Inspected h testArgs testConfig testFresh .none := ⟨rfl, rfl⟩
  obtain ⟨res, pod6, hd⟩ := test_decided
  have hfail : ¬ ∃ link peer rodata,
      Installs testWorld h testArgs testConfig res pod6 testFresh link peer rodata := by
    rintro ⟨link, peer, rodata, hinst⟩
    have hroute : h.fault .setup (.routeReplace .default) = none := hinst.completes
      (.routeReplace .default, .route ((testConfig.setup peer).defaultRoute link))
      (by simp [IPv4Setup.steps])
    exact absurd hroute (by decide)
  obtain ⟨-, hclean⟩ := failed_setup_clean_iff (testHost_lawful _) (testHost_undoWorks (by simp))
    hd hi (by decide) hfail
  refine ⟨hi, hclean.mpr fun o ho hclat => ?_⟩
  cases o with
  | link l => exact hclat.elim
  | qdisc i => exact hclat.elim
  | _ => cases ho

/-- The second ADD cannot load the programs, and leaves the whole of the first setup: the pod
starts, without the programs it should have.  Or it cannot replace the address, and leaves the
programs without an address. -/
theorem failed_setup_leaves_clat :
    let h := testHost [.loadPrograms]
    let h' := testHost [.addrReplace]
    let ns := (exec (cmdAdd testWorld h testArgs testConf) testInstalled).2
    let ns' := (exec (cmdAdd testWorld h' testArgs testConf) testInstalled).2
    inspectIPv4 h "eth0" (testConfig.setup []) testInstalled = .ok .ours ∧
      (exec (cmdAdd testWorld h testArgs testConf) testInstalled).1.isOk = true ∧
      .route ((testConfig.setup []).defaultRoute testLink) ∈ ns.objects ∧
      .addr ((testConfig.setup []).addr testLink) ∈ ns.objects ∧
      (exec (cmdAdd testWorld h' testArgs testConf) testInstalled).1.isOk = true ∧
      .addr ((testConfig.setup []).addr testLink) ∉ ns'.objects ∧
      ∃ f ∈ ns'.filters, f.clatName = some "clat_egress" := by
  intro h h' ns ns'
  refine ⟨rfl, ?_, ?_, ?_, ?_, ?_, ?_⟩
  · decide +kernel
  · decide +kernel
  · decide +kernel
  · decide +kernel
  · decide +kernel
  · decide +kernel

end CiliumClat.Plugin
