import CiliumClat.Refinement.Netns

/-!
# What ADD and DEL do to a namespace

ADD looks before it acts: it changes nothing before it has the pod interface, the MAC of its peer
and the programs (`Prepared`), and from there on it ends in one of three ways
(`installSetup_cases`).  If no call of the undoing fails then two descriptions are enough, one of
what a complete ADD leaves (`cmdAdd_installed`) and one of what a failed one leaves
(`cmdAdd_failed`).  DEL works on whatever interface it finds (`cmdDel_state`).
-/

namespace CiliumClat.Plugin

open KeyedTable EarlyExit

variable {w : World} {h : Host} {ns : Netns} {link : Link} {s : IPv4Setup}

/-! ## ADD -/

section Add

variable {args : CmdArgs} {conf : NetConf} {cfg : Config} {res : Result} {pod6 : In6Addr}
  {peer : List UInt8} {rodata : CiliumClat.Constants}

/-- The objects that `Attach` puts in. -/
def Host.attached (h : Host) (w : World) (ns : Netns) (link : Link)
    (rodata : CiliumClat.Constants) : List Object :=
  if QdiscReady h ns link then .qdisc link.index :: h.done (filterSteps w link rodata) else []

/-- `Attach` succeeds. -/
def Attaches (h : Host) (w : World) (ns : Netns) (link : Link) (rodata : CiliumClat.Constants) :
    Prop :=
  QdiscReady h ns link ∧ h.Completes (filterSteps w link rodata)

theorem attach_cases (w : World) (h : Host) (ns : Netns) (link : Link)
    (rodata : CiliumClat.Constants) :
    ∃ r ns', exec (attach w h link rodata) ns = (r, ns') ∧
      ns'.objects = putAll Object.key (h.attached w ns link rodata) ns.objects ∧
      (r = .ok () ↔ Attaches h w ns link rodata) := by
  rw [Host.attached]
  by_cases hready : QdiscReady h ns link
  · obtain ⟨r, ns', hexec, hobjects, hok⟩ := attach_spec w rodata hready
    rw [if_pos hready]
    exact ⟨r, ns', hexec, hobjects, hok.trans (and_iff_right hready).symm⟩
  · obtain ⟨e, hexec⟩ := attach_of_not_ready w rodata hready
    rw [if_neg hready]
    exact ⟨_, ns, hexec, rfl, iff_of_false nofun fun hatt => hready hatt.1⟩

/-- All that ADD installs. -/
def installed (w : World) (s : IPv4Setup) (link : Link) (rodata : CiliumClat.Constants) :
    List Object :=
  (s.steps link).map Prod.snd ++ (.qdisc link.index :: (filterSteps w link rodata).map Prod.snd)

theorem mem_installed {o : Object} :
    o ∈ installed w s link rodata ↔
      o = .addr (s.addr link) ∨ o = .neigh (s.neigh link) ∨ o = .route (s.gatewayRoute link) ∨
        o = .route (s.defaultRoute link) ∨ o = .qdisc link.index ∨
        ∃ hook, o = .filter (bpfFilter w link rodata hook) := by
  rw [installed, List.mem_append, mem_steps, List.mem_cons, mem_filterSteps]
  simp only [or_assoc]

/-- No two of the plugin's objects have the same key. -/
theorem nodup_installed : ((installed w s link rodata).map Object.key).Nodup := by
  simp [installed, IPv4Setup.steps, filterSteps, Object.key, Route.key, Filter.key,
    IPv4Setup.gatewayRoute, IPv4Setup.defaultRoute, hostRoute, bpfFilter]

theorem nodup_steps : (((s.steps link).map Prod.snd).map Object.key).Nodup := by
  simp [IPv4Setup.steps, Object.key, Route.key, IPv4Setup.gatewayRoute, IPv4Setup.defaultRoute,
    hostRoute]

theorem nodup_done : ((h.done (s.steps link)).map Object.key).Nodup :=
  ((h.done_sublist _).map Object.key).nodup nodup_steps

theorem attached_sublist :
    (h.attached w ns link rodata).Sublist
      (.qdisc link.index :: (filterSteps w link rodata).map Prod.snd) := by
  rw [Host.attached]
  split
  · exact (h.done_sublist _).cons_cons _
  · exact List.nil_sublist _

theorem nodup_attached :
    (((s.steps link).map Prod.snd ++ h.attached w ns link rodata).map Object.key).Nodup :=
  ((attached_sublist.append_left _).map Object.key).nodup nodup_installed

/-- What `Attach` puts in is the qdisc, or a filter of the plugin. -/
theorem cases_of_attached {x : Object} (hx : x ∈ h.attached w ns link rodata) :
    x = .qdisc link.index ∨ ∃ hook, x = .filter (bpfFilter w link rodata hook) := by
  have hmem := attached_sublist.subset hx
  rwa [List.mem_cons, mem_filterSteps] at hmem

/-- The setup leaves the qdiscs alone until it attaches. -/
theorem qdisc_mem_of_configured {ns₁ : Netns}
    (hobjects : ns₁.objects = putAll Object.key ((s.steps link).map Prod.snd) ns.objects) (i : ℕ) :
    i ∈ ns₁.qdiscs ↔ i ∈ ns.qdiscs := by
  rw [← qdisc_mem_objects, hobjects]
  simp [IPv4Setup.steps, Object.key]

/-- **The setup in the namespace of the pod.**  It ends in one of three ways. -/
theorem installSetup_cases (w : World) (s : IPv4Setup) (rodata : CiliumClat.Constants)
    (henter : h.fault .setup .enterNetns = none)
    (hlink : linkByName h .setup ns args.ifName = .ok link) :
    (¬ h.Completes (s.steps link) ∧ ∃ e ns₁,
        exec (installSetup w h args s rodata) ns = (.error e, (exec (removeIPv4 h link s) ns₁).2) ∧
        ns₁.objects = putAll Object.key (h.done (s.steps link)) ns.objects) ∨
      (h.Completes (s.steps link) ∧ ∃ ns₂,
        ns₂.objects = putAll Object.key
          ((s.steps link).map Prod.snd ++ h.attached w ns link rodata) ns.objects ∧
        (Attaches h w ns link rodata ∧ exec (installSetup w h args s rodata) ns = (.ok (), ns₂) ∨
          ¬ Attaches h w ns link rodata ∧ ∃ e, exec (installSetup w h args s rodata) ns =
            (.error e, (exec (removeIPv4 h link s) (exec (detach h link) ns₂).2).2))) := by
  obtain ⟨r₁, ns₁, hconf, hobjects₁, hok₁⟩ := configureIPv4_spec h link s ns trivial
  obtain ⟨r₂, ns₂, hatt, hobjects₂, hok₂⟩ := attach_cases w h ns₁ link rodata
  have hfind : (linkByName h .setup ns args.ifName).mapError
      (GoError.wrap s!"find {args.ifName}") = .ok link := by
    rw [hlink]
    rfl
  rw [installSetup, withNetNSPath_of_none henter, exec_query_bind_ok ns hfind,
    exec_attempt_bind hconf]
  cases r₁ with
  | error e => exact Or.inl ⟨fun hc => (nomatch hok₁.mpr hc), e, ns₁, rfl, hobjects₁⟩
  | ok a =>
    have hc := hok₁.mp rfl
    rw [Host.done_of_completes hc] at hobjects₁
    have hready : QdiscReady h ns₁ link ↔ QdiscReady h ns link := by
      rw [QdiscReady, QdiscReady, qdisc_mem_of_configured hobjects₁]
    have hattached : h.attached w ns₁ link rodata = h.attached w ns link rodata :=
      if_congr hready rfl rfl
    rw [hattached, hobjects₁, ← putAll_append] at hobjects₂
    rw [Attaches, hready] at hok₂
    refine Or.inr ⟨hc, ns₂, hobjects₂, ?_⟩
    rw [exec_attempt_bind hatt]
    cases r₂ with
    | ok a => exact Or.inl ⟨hok₂.mp rfl, rfl⟩
    | error e => exact Or.inr ⟨fun ha => (nomatch hok₂.mpr ha), e, rfl⟩

/-- Without the namespace or the pod interface there is no setup. -/
theorem installSetup_of_not_found (w : World) (s : IPv4Setup) (rodata : CiliumClat.Constants)
    (hfound : ¬ (h.fault .setup .enterNetns = none ∧
      ∃ link, linkByName h .setup ns args.ifName = .ok link)) :
    ∃ e, exec (installSetup w h args s rodata) ns = (.error e, ns) := by
  cases hf : h.fault .setup .enterNetns with
  | some e =>
    rw [installSetup, withNetNSPath_of_some hf]
    exact ⟨_, exec_throw ns e.error⟩
  | none =>
    cases hlink : linkByName h .setup ns args.ifName with
    | ok link => exact absurd ⟨hf, link, hlink⟩ hfound
    | error e =>
      have hfind : (linkByName h .setup ns args.ifName).mapError
          (GoError.wrap s!"find {args.ifName}") = .error (e.wrap s!"find {args.ifName}") := by
        rw [hlink]
        rfl
      rw [installSetup, withNetNSPath_of_none hf]
      exact ⟨_, exec_query_bind_error ns hfind⟩

/-- ADD has all it needs for the setup: the pod interface and its peer, and the programs. -/
structure Prepared (w : World) (h : Host) (args : CmdArgs) (cfg : Config) (res : Result)
    (pod6 : In6Addr) (ns : Netns) (link : Link) (peer : List UInt8)
    (rodata : CiliumClat.Constants) : Prop where
  podLink : ∃ pl, exec (inspectPodLink h args) ns = (.ok pl, ns) ∧
    peerMAC w h pl res args.ifName = .ok peer
  load : load w h (cfg.constants pod6) = .ok rodata
  enter : h.fault .setup .enterNetns = none
  link : linkByName h .setup ns args.ifName = .ok link

theorem exec_inspectPodLink_state (h : Host) (args : CmdArgs) (ns : Netns) :
    (exec (inspectPodLink h args) ns).2 = ns := by
  rw [inspectPodLink]
  cases hf : h.fault .podLink .enterNetns with
  | some e => rw [withNetNSPath_of_some hf, exec_throw]
  | none =>
    rw [withNetNSPath_of_none hf, exec_bind, exec_query]
    cases (linkByName h .podLink ns args.ifName).mapError
        (GoError.wrap s!"find {args.ifName} in {args.netns}") with
    | error e => rfl
    | ok l =>
      show (exec (if l.type ≠ "veth" then _ else _) ns).2 = ns
      split <;> rfl

/-- `inspectPodLink` accepts a veth. -/
theorem inspectPodLink_iff {pl : PodLink} :
    (exec (inspectPodLink h args) ns).1 = .ok pl ↔
      h.fault .podLink .enterNetns = none ∧
        ∃ l, linkByName h .podLink ns args.ifName = .ok l ∧ l.type = "veth" ∧
          pl = ⟨l.hardwareAddr, l.mtu, l.parentIndex⟩ := by
  rw [inspectPodLink]
  cases hf : h.fault .podLink .enterNetns with
  | some e =>
    rw [withNetNSPath_of_some hf]
    exact iff_of_false nofun nofun
  | none =>
    rw [withNetNSPath_of_none hf, exec_bind, exec_query, and_iff_right rfl]
    cases linkByName h .podLink ns args.ifName with
    | error e => exact iff_of_false nofun nofun
    | ok l =>
      show (exec (if l.type ≠ "veth" then _ else _) ns).1 = _ ↔ _
      by_cases hveth : l.type = "veth"
      · rw [if_neg (not_not.mpr hveth)]
        constructor
        · rintro ⟨⟩
          exact ⟨l, rfl, hveth, rfl⟩
        · rintro ⟨l', ⟨⟩, -, rfl⟩
          rfl
      · rw [if_pos hveth]
        refine iff_of_false nofun ?_
        rintro ⟨l', ⟨⟩, hveth', -⟩
        exact hveth hveth'

/-- `install` reaches the setup, or it fails and has done nothing. -/
theorem install_cases (w : World) (h : Host) (args : CmdArgs) (cfg : Config) (res : Result)
    (pod6 : In6Addr) (ns : Netns) :
    (∃ link peer rodata, Prepared w h args cfg res pod6 ns link peer rodata ∧
      exec (install w h args cfg res pod6) ns =
        exec (installSetup w h args (cfg.setup peer) rodata) ns) ∨
      (¬ ∃ link peer rodata, Prepared w h args cfg res pod6 ns link peer rodata) ∧
        ∃ e, exec (install w h args cfg res pod6) ns = (.error e, ns) := by
  rcases hpl : exec (inspectPodLink h args) ns with ⟨r, ns'⟩
  obtain rfl : ns = ns' := by
    rw [← exec_inspectPodLink_state h args ns, hpl]
  cases r with
  | error e =>
    refine Or.inr ⟨?_, e, exec_bind_error hpl⟩
    rintro ⟨link, peer, rodata, hprep⟩
    obtain ⟨pl, hpl', -⟩ := hprep.podLink
    nomatch hpl.symm.trans hpl'
  | ok pl =>
    cases hpeer : peerMAC w h pl res args.ifName with
    | error e =>
      refine Or.inr ⟨?_, e, (exec_bind_ok hpl).trans (exec_query_bind_error ns hpeer)⟩
      rintro ⟨link, peer, rodata, hprep⟩
      obtain ⟨pl', hpl', hpeer'⟩ := hprep.podLink
      cases hpl.symm.trans hpl'
      nomatch hpeer.symm.trans hpeer'
    | ok peer =>
      cases hload : Plugin.load w h (cfg.constants pod6) with
      | error e =>
        refine Or.inr ⟨?_, e, (exec_bind_ok hpl).trans
          ((exec_query_bind_ok ns hpeer).trans (exec_query_bind_error ns hload))⟩
        rintro ⟨link, peer', rodata, hprep⟩
        nomatch hload.symm.trans hprep.load
      | ok rodata =>
        have hinstall : exec (install w h args cfg res pod6) ns =
            exec (installSetup w h args (cfg.setup peer) rodata) ns :=
          (exec_bind_ok hpl).trans
            ((exec_query_bind_ok ns hpeer).trans (exec_query_bind_ok ns hload))
        by_cases hfound : h.fault .setup .enterNetns = none ∧
            ∃ link, linkByName h .setup ns args.ifName = .ok link
        · obtain ⟨henter, link, hlink⟩ := hfound
          exact Or.inl ⟨link, peer, rodata, ⟨⟨pl, hpl, hpeer⟩, hload, henter, hlink⟩, hinstall⟩
        · obtain ⟨e, he⟩ := installSetup_of_not_found w (cfg.setup peer) rodata hfound
          refine Or.inr ⟨?_, e, hinstall.trans he⟩
          rintro ⟨link, peer', rodata', hprep⟩
          exact hfound ⟨hprep.enter, link, hprep.link⟩

/-- The pod is not skipped. -/
structure Decided (w : World) (args : CmdArgs) (conf : NetConf) (cfg : Config) (res : Result)
    (pod6 : In6Addr) : Prop where
  config : parseConfig w conf = .ok cfg
  prev : conf.prevResult = some res
  pod6 : cfg.decide (some res) (podNamespace args.args) = .ok pod6

/-- ADD or CHECK takes the IPv4 state of the namespace for `state`. -/
structure Inspected (h : Host) (args : CmdArgs) (cfg : Config) (ns : Netns) (state : IPv4State) :
    Prop where
  enter : h.fault .inspect .enterNetns = none
  state : inspectIPv4 h args.ifName (cfg.setup []) ns = .ok state

@[simp] theorem exec_printResult_state : (exec (printResult h res) ns).2 = ns := rfl

/-- `failOrOpen` succeeds only if the configuration asks for it. -/
theorem failOpen_of_ok {err : GoError} {r : Result}
    (hok : (exec (failOrOpen h cfg res err) ns).1 = .ok r) : cfg.failOpen = true := by
  by_contra hclosed
  rw [failOrOpen, if_neg hclosed] at hok
  nomatch hok

@[simp] theorem exec_failOrOpen_state {err : GoError} :
    (exec (failOrOpen h cfg res err) ns).2 = ns := by
  rw [failOrOpen]
  split <;> rfl

theorem cmdAdd_of_decided (hd : Decided w args conf cfg res pod6) :
    exec (cmdAdd w h args conf) ns = exec (addPod w h args cfg res pod6) ns := by
  rw [cmdAdd, exec_query_bind_ok ns hd.config, hd.prev]
  dsimp only
  rw [hd.pod6]

/-- A pod that is skipped, or a request that is refused. -/
theorem cmdAdd_of_not_decided (hd : ¬ ∃ cfg res pod6, Decided w args conf cfg res pod6) :
    (exec (cmdAdd w h args conf) ns).2 = ns := by
  rw [cmdAdd, exec_bind, exec_query]
  cases hcfg : parseConfig w conf with
  | error e => rfl
  | ok cfg =>
    cases hprev : conf.prevResult with
    | none => rfl
    | some res =>
      dsimp only
      cases hdec : cfg.decide (some res) (podNamespace args.args) with
      | error reason => rfl
      | ok pod6 => exact absurd ⟨cfg, res, pod6, hcfg, hprev, hdec⟩ hd

theorem exec_inspection (h : Host) (args : CmdArgs) (cfg : Config) (ns : Netns) :
    ∃ r, exec (withNetNSPath h .inspect
      (query fun ns => inspectIPv4 h args.ifName (cfg.setup []) ns)) ns = (r, ns) ∧
        ∀ st, r = .ok st ↔ Inspected h args cfg ns st := by
  cases hf : h.fault .inspect .enterNetns with
  | some e =>
    rw [withNetNSPath_of_some hf]
    refine ⟨_, exec_throw ns _, fun st => iff_of_false nofun fun hi => ?_⟩
    nomatch hf.symm.trans hi.enter
  | none =>
    rw [withNetNSPath_of_none hf]
    exact ⟨_, exec_query ns _, fun st => ⟨fun hst => ⟨hf, hst⟩, fun hi => hi.state⟩⟩

/-- ADD does not set up a second IPv4 stack. -/
theorem addPod_of_foreign (hi : Inspected h args cfg ns .foreign) :
    exec (addPod w h args cfg res pod6) ns = exec (printResult h res) ns := by
  obtain ⟨r, hexec, hr⟩ := exec_inspection h args cfg ns
  rw [addPod, exec_attempt_bind hexec, (hr _).mpr hi]

theorem addPod_of_not_inspected (w : World) (res : Result) (pod6 : In6Addr)
    (hi : ¬ ∃ st, Inspected h args cfg ns st) :
    ∃ err, exec (addPod w h args cfg res pod6) ns = exec (failOrOpen h cfg res err) ns := by
  obtain ⟨r, hexec, hr⟩ := exec_inspection h args cfg ns
  cases r with
  | ok st => exact absurd ⟨st, (hr st).mp rfl⟩ hi
  | error err => exact ⟨err.wrap "inspect pod netns", exec_attempt_bind hexec⟩

theorem addPod_of_inspected {st : IPv4State} (hi : Inspected h args cfg ns st)
    (hst : st ≠ .foreign) :
    exec (addPod w h args cfg res pod6) ns =
      match exec (install w h args cfg res pod6) ns with
      | (.ok (), ns') => exec (printResult h res) ns'
      | (.error err, ns') => exec (failOrOpen h cfg res err) ns' := by
  obtain ⟨r, hexec, hr⟩ := exec_inspection h args cfg ns
  rw [addPod, exec_attempt_bind hexec, (hr _).mpr hi]
  rcases hinst : exec (install w h args cfg res pod6) ns with ⟨r', ns'⟩
  cases st with
  | foreign => exact absurd rfl hst
  | none =>
    refine (exec_attempt_bind hinst).trans ?_
    cases r' <;> rfl
  | ours =>
    refine (exec_attempt_bind hinst).trans ?_
    cases r' <;> rfl

/-- ADD reaches the setup `s` of the interface `link`, with programs loaded with `rodata`. -/
def Reaches (w : World) (h : Host) (args : CmdArgs) (conf : NetConf) (ns : Netns) (s : IPv4Setup)
    (link : Link) (rodata : CiliumClat.Constants) : Prop :=
  ∃ cfg res pod6 st peer, Decided w args conf cfg res pod6 ∧ Inspected h args cfg ns st ∧
    st ≠ .foreign ∧ Prepared w h args cfg res pod6 ns link peer rodata ∧ s = cfg.setup peer

theorem Prepared.unique {link' : Link} {peer' : List UInt8} {rodata' : CiliumClat.Constants}
    (hp : Prepared w h args cfg res pod6 ns link peer rodata)
    (hp' : Prepared w h args cfg res pod6 ns link' peer' rodata') :
    link' = link ∧ peer' = peer ∧ rodata' = rodata := by
  obtain ⟨pl, hpl, hpeer⟩ := hp.podLink
  obtain ⟨pl', hpl', hpeer'⟩ := hp'.podLink
  cases hpl.symm.trans hpl'
  cases hpeer.symm.trans hpeer'
  cases hp.load.symm.trans hp'.load
  cases hp.link.symm.trans hp'.link
  exact ⟨rfl, rfl, rfl⟩

theorem Decided.unique {cfg' : Config} {res' : Result} {pod6' : In6Addr}
    (hd : Decided w args conf cfg res pod6) (hd' : Decided w args conf cfg' res' pod6') :
    cfg' = cfg ∧ res' = res ∧ pod6' = pod6 := by
  cases hd.config.symm.trans hd'.config
  cases hd.prev.symm.trans hd'.prev
  cases hd.pod6.symm.trans hd'.pod6
  exact ⟨rfl, rfl, rfl⟩

theorem Reaches.unique {s s' : IPv4Setup} {link' : Link} {rodata' : CiliumClat.Constants}
    (hr : Reaches w h args conf ns s link rodata)
    (hr' : Reaches w h args conf ns s' link' rodata') :
    s' = s ∧ link' = link ∧ rodata' = rodata := by
  obtain ⟨cfg, res, pod6, st, peer, hd, -, -, hp, rfl⟩ := hr
  obtain ⟨cfg', res', pod6', st', peer', hd', -, -, hp', rfl⟩ := hr'
  obtain ⟨rfl, rfl, rfl⟩ := hd.unique hd'
  obtain ⟨rfl, rfl, rfl⟩ := hp.unique hp'
  exact ⟨rfl, rfl, rfl⟩

/-- **ADD changes the namespace only in the setup.** -/
theorem cmdAdd_state (w : World) (h : Host) (args : CmdArgs) (conf : NetConf) (ns : Netns) :
    (∃ s link rodata, Reaches w h args conf ns s link rodata ∧
      (exec (cmdAdd w h args conf) ns).2 = (exec (installSetup w h args s rodata) ns).2) ∨
      (¬ ∃ s link rodata, Reaches w h args conf ns s link rodata) ∧
        (exec (cmdAdd w h args conf) ns).2 = ns := by
  by_cases hd : ∃ cfg res pod6, Decided w args conf cfg res pod6
  swap
  · refine Or.inr ⟨?_, cmdAdd_of_not_decided hd⟩
    rintro ⟨s, link, rodata, cfg, res, pod6, st, peer, hd', -⟩
    exact hd ⟨cfg, res, pod6, hd'⟩
  obtain ⟨cfg, res, pod6, hd⟩ := hd
  rw [cmdAdd_of_decided hd]
  by_cases hi : ∃ st, Inspected h args cfg ns st
  swap
  · obtain ⟨err, hexec⟩ := addPod_of_not_inspected w res pod6 hi
    refine Or.inr ⟨?_, by rw [hexec, exec_failOrOpen_state]⟩
    rintro ⟨s, link, rodata, cfg', res', pod6', st, peer, hd', hi', -⟩
    obtain ⟨rfl, rfl, rfl⟩ := hd.unique hd'
    exact hi ⟨st, hi'⟩
  obtain ⟨st, hi⟩ := hi
  by_cases hst : st = .foreign
  · subst hst
    refine Or.inr ⟨?_, by rw [addPod_of_foreign hi, exec_printResult_state]⟩
    rintro ⟨s, link, rodata, cfg', res', pod6', st, peer, hd', hi', hst', -⟩
    obtain ⟨rfl, rfl, rfl⟩ := hd.unique hd'
    cases hi.state.symm.trans hi'.state
    exact hst' rfl
  rw [addPod_of_inspected hi hst]
  obtain ⟨link, peer, rodata, hprep, hexec⟩ | ⟨hprep, e, hexec⟩ :=
    install_cases w h args cfg res pod6 ns
  · refine Or.inl ⟨_, link, rodata, ⟨cfg, res, pod6, st, peer, hd, hi, hst, hprep, rfl⟩, ?_⟩
    rw [hexec]
    rcases exec (installSetup w h args (cfg.setup peer) rodata) ns with ⟨r, ns'⟩
    cases r with
    | ok a => exact exec_printResult_state
    | error err => exact exec_failOrOpen_state
  · refine Or.inr ⟨?_, ?_⟩
    · rintro ⟨s, link, rodata, cfg', res', pod6', st', peer, hd', -, -, hprep', -⟩
      obtain ⟨rfl, rfl, rfl⟩ := hd.unique hd'
      exact hprep ⟨link, peer, rodata, hprep'⟩
    · rw [hexec]
      exact exec_failOrOpen_state

/-! ## What ADD leaves if undoing works -/

/-- No call that undoes something fails. -/
structure Host.UndoWorks (h : Host) : Prop where
  addrDel : h.fault .setup .addrDel = none
  neighDel : h.fault .setup .neighDel = none
  routeDel : ∀ kind, h.fault .setup (.routeDel kind) = none
  qdiscDel : h.fault .setup .qdiscDel = none

/-- ADD gets through its setup. -/
structure Installs (w : World) (h : Host) (args : CmdArgs) (cfg : Config) (res : Result)
    (pod6 : In6Addr) (ns : Netns) (link : Link) (peer : List UInt8)
    (rodata : CiliumClat.Constants) : Prop where
  prepared : Prepared w h args cfg res pod6 ns link peer rodata
  completes : h.Completes ((cfg.setup peer).steps link)
  attaches : Attaches h w ns link rodata

/-- A failed ADD takes the object out of the namespace: the setup had replaced it, `RemoveIPv4`
takes it out of what the setup has made of the namespace, or it goes with the qdisc, if the setup
got so far. -/
def Undone (w : World) (h : Host) (args : CmdArgs) (cfg : Config) (res : Result) (pod6 : In6Addr)
    (ns : Netns) (o : Object) : Prop :=
  ∃ link peer rodata, Prepared w h args cfg res pod6 ns link peer rodata ∧
    ((∃ x ∈ h.done ((cfg.setup peer).steps link), o.key = x.key) ∨
      h.Removes (cfg.setup peer) link
        (putAll Object.key (h.done ((cfg.setup peer).steps link)) ns.objects) o ∨
      h.Completes ((cfg.setup peer).steps link) ∧ OnQdisc link.index o)

/-- `RemoveIPv4` takes out all that `ConfigureIPv4` has put in: its routes have the least metric
that there is. -/
theorem removes_of_mem_steps (hh : h.Lawful) (hu : h.UndoWorks) {S : Set Object} {x : Object}
    (hx : x ∈ (s.steps link).map Prod.snd) (hS : x ∈ S) : h.Removes s link S x := by
  rcases mem_steps.mp hx with rfl | rfl | rfl | rfl
  · exact Or.inr (Or.inr (Or.inr ⟨hu.addrDel, hS, Or.inl rfl⟩))
  · exact Or.inr (Or.inr (Or.inl ⟨hu.neighDel, rfl⟩))
  · exact Or.inr (Or.inl ⟨hu.routeDel _, _, rfl, hh.matches_self _, fun _ _ _ => Nat.zero_le _⟩)
  · exact Or.inl ⟨hu.routeDel _, _, rfl, hh.matches_self _, fun _ _ _ => Nat.zero_le _⟩

/-- What has the key of the qdisc or of a filter of the plugin goes with the qdisc. -/
theorem onQdisc_of_key {x o : Object}
    (hx : x = .qdisc link.index ∨ ∃ hook, x = .filter (bpfFilter w link rodata hook))
    (hkey : o.key = x.key) : OnQdisc link.index o := by
  rcases hx with rfl | ⟨hook, rfl⟩ <;> cases o <;> simp only [Object.key, reduceCtorEq] at hkey
  case inl.qdisc i => exact Key.qdisc.inj hkey
  case inr.filter f => exact congrArg Prod.fst (Key.filter.inj hkey)

/-- What `Attach` puts in goes with the qdisc. -/
theorem onQdisc_of_attached {x o : Object} (hx : x ∈ h.attached w ns link rodata)
    (hkey : o.key = x.key) : OnQdisc link.index o :=
  onQdisc_of_key (cases_of_attached hx) hkey

/-- **What a complete ADD leaves**: the plugin's objects, in the place of those with their keys. -/
theorem cmdAdd_installed {st : IPv4State} (hd : Decided w args conf cfg res pod6)
    (hi : Inspected h args cfg ns st) (hst : st ≠ .foreign)
    (hinst : Installs w h args cfg res pod6 ns link peer rodata) :
    ∃ ns', exec (cmdAdd w h args conf) ns = exec (printResult h res) ns' ∧
      ns'.objects = putAll Object.key (installed w (cfg.setup peer) link rodata) ns.objects := by
  obtain ⟨hprep, hc, hatt⟩ := hinst
  rw [cmdAdd_of_decided hd, addPod_of_inspected hi hst]
  have hattached : h.attached w ns link rodata =
      .qdisc link.index :: (filterSteps w link rodata).map Prod.snd := by
    rw [Host.attached, if_pos hatt.1, Host.done_of_completes hatt.2]
  obtain ⟨link', peer', rodata', hprep', hexec⟩ | ⟨hnot, -⟩ :=
    install_cases w h args cfg res pod6 ns
  · obtain ⟨rfl, rfl, rfl⟩ := hprep.unique hprep'
    rw [hexec]
    obtain ⟨hc', -⟩ | ⟨-, ns₂, hobjects, ⟨-, hexec₂⟩ | ⟨hatt', -⟩⟩ :=
      installSetup_cases w (cfg.setup peer') rodata' hprep.enter hprep.link
    · exact absurd hc hc'
    · refine ⟨ns₂, by rw [hexec₂], ?_⟩
      rw [hobjects, hattached]
      rfl
    · exact absurd hatt hatt'
  · exact absurd ⟨link, peer, rodata, hprep⟩ hnot

/-- An ADD that does not reach its setup. -/
theorem cmdAdd_of_not_prepared {st : IPv4State} (hd : Decided w args conf cfg res pod6)
    (hi : Inspected h args cfg ns st) (hst : st ≠ .foreign)
    (hprep : ¬ ∃ link peer rodata, Prepared w h args cfg res pod6 ns link peer rodata) :
    ∃ err, exec (cmdAdd w h args conf) ns = exec (failOrOpen h cfg res err) ns := by
  rw [cmdAdd_of_decided hd, addPod_of_inspected hi hst]
  obtain ⟨link, peer, rodata, hprep', -⟩ | ⟨-, e, hexec⟩ := install_cases w h args cfg res pod6 ns
  · exact absurd ⟨link, peer, rodata, hprep'⟩ hprep
  · exact ⟨e, by rw [hexec]⟩

theorem Prepared.undone_iff (hprep : Prepared w h args cfg res pod6 ns link peer rodata)
    (o : Object) :
    Undone w h args cfg res pod6 ns o ↔
      (∃ x ∈ h.done ((cfg.setup peer).steps link), o.key = x.key) ∨
        h.Removes (cfg.setup peer) link
          (putAll Object.key (h.done ((cfg.setup peer).steps link)) ns.objects) o ∨
        h.Completes ((cfg.setup peer).steps link) ∧ OnQdisc link.index o := by
  constructor
  · rintro ⟨link', peer', rodata', hprep', hor⟩
    obtain ⟨rfl, rfl, rfl⟩ := hprep.unique hprep'
    exact hor
  · intro hor
    exact ⟨link, peer, rodata, hprep, hor⟩

/-- Undoing after a call of `ConfigureIPv4` has failed. -/
theorem objects_undo_configured (hh : h.Lawful) (hu : h.UndoWorks) {ns₁ : Netns}
    (hobjects : ns₁.objects = putAll Object.key (h.done (s.steps link)) ns.objects) :
    (exec (removeIPv4 h link s) ns₁).2.objects =
      without (fun o => (∃ x ∈ h.done (s.steps link), o.key = x.key) ∨
        h.Removes s link (putAll Object.key (h.done (s.steps link)) ns.objects) o) ns.objects := by
  rw [objects_removeIPv4 hh, hobjects, without_putAll nodup_done]
  intro x hx
  exact removes_of_mem_steps hh hu ((h.done_sublist _).subset hx)
    ((mem_putAll nodup_done).mpr (Or.inl hx))

/-- `Attach` and `Detach` make no difference to what `RemoveIPv4` takes out. -/
theorem removes_detached (hh : h.Lawful) {ns₂ : Netns}
    (hobjects : ns₂.objects = putAll Object.key
      ((s.steps link).map Prod.snd ++ h.attached w ns link rodata) ns.objects) (o : Object) :
    h.Removes s link (exec (detach h link) ns₂).2.objects o ↔
      h.Removes s link (putAll Object.key ((s.steps link).map Prod.snd) ns.objects) o := by
  have hmem {o : Object} (hon : ¬ OnQdisc link.index o) :
      o ∈ ns₂.objects ↔ o ∈ putAll Object.key ((s.steps link).map Prod.snd) ns.objects := by
    have hne : ∀ x ∈ h.attached w ns link rodata, o.key ≠ x.key := fun x hx hkey =>
      hon (onQdisc_of_attached hx hkey)
    rw [hobjects, mem_putAll nodup_attached, mem_putAll nodup_steps, List.mem_append,
      List.forall_mem_append, or_iff_left fun hmem => hne o hmem rfl, and_iff_left hne]
  rw [removes_detach hh]
  exact Host.removes_congr (fun a => hmem id) (fun r => hmem id) o

/-- Undoing after a call of `Attach` has failed: what was replaced by `Attach` would have gone with
the qdisc. -/
theorem objects_undo_attached (hh : h.Lawful) (hu : h.UndoWorks) {ns₂ : Netns}
    (hobjects : ns₂.objects = putAll Object.key
      ((s.steps link).map Prod.snd ++ h.attached w ns link rodata) ns.objects) :
    (exec (removeIPv4 h link s) (exec (detach h link) ns₂).2).2.objects =
      without (fun o => (∃ x ∈ (s.steps link).map Prod.snd, o.key = x.key) ∨
        h.Removes s link (putAll Object.key ((s.steps link).map Prod.snd) ns.objects) o ∨
          OnQdisc link.index o) ns.objects := by
  have hgone : ∀ x ∈ (s.steps link).map Prod.snd ++ h.attached w ns link rodata,
      OnQdisc link.index x ∨
        h.Removes s link (putAll Object.key ((s.steps link).map Prod.snd) ns.objects) x := by
    intro x hx
    rcases List.mem_append.mp hx with hx | hx
    · exact Or.inr (removes_of_mem_steps hh hu hx ((mem_putAll nodup_steps).mpr (Or.inl hx)))
    · exact Or.inl (onQdisc_of_attached hx rfl)
  rw [objects_removeIPv4 hh, without_congr (removes_detached hh hobjects),
    objects_detach hh hu.qdiscDel, hobjects, without_without, without_putAll nodup_attached hgone]
  refine without_congr fun o => ?_
  constructor
  · rintro (⟨x, hx, hkey⟩ | hon | hdel)
    · rcases List.mem_append.mp hx with hx | hx
      · exact Or.inl ⟨x, hx, hkey⟩
      · exact Or.inr (Or.inr (onQdisc_of_attached hx hkey))
    · exact Or.inr (Or.inr hon)
    · exact Or.inr (Or.inl hdel)
  · rintro (⟨x, hx, hkey⟩ | hdel | hon)
    · exact Or.inl ⟨x, List.mem_append_left _ hx, hkey⟩
    · exact Or.inr (Or.inr hdel)
    · exact Or.inr (Or.inl hon)

/-- **What a failed ADD leaves**, if undoing works: what was there, without what is undone.  Nothing
that it had put in itself is left. -/
theorem cmdAdd_failed (hh : h.Lawful) (hu : h.UndoWorks) {st : IPv4State}
    (hd : Decided w args conf cfg res pod6) (hi : Inspected h args cfg ns st) (hst : st ≠ .foreign)
    (hfail : ¬ ∃ link peer rodata, Installs w h args cfg res pod6 ns link peer rodata) :
    ∃ err ns', exec (cmdAdd w h args conf) ns = exec (failOrOpen h cfg res err) ns' ∧
      ns'.objects = without (Undone w h args cfg res pod6 ns) ns.objects := by
  rw [cmdAdd_of_decided hd, addPod_of_inspected hi hst]
  obtain ⟨link, peer, rodata, hprep, hexec⟩ | ⟨hnot, e, hexec⟩ :=
    install_cases w h args cfg res pod6 ns
  · rw [hexec]
    obtain ⟨hc, e, ns₁, hexec₁, hobjects⟩ | ⟨hc, ns₂, hobjects, ⟨hatt, -⟩ | ⟨hatt, e, hexec₂⟩⟩ :=
      installSetup_cases w (cfg.setup peer) rodata hprep.enter hprep.link
    · refine ⟨e, _, by rw [hexec₁], ?_⟩
      rw [objects_undo_configured hh hu hobjects]
      refine without_congr fun o => ?_
      rw [hprep.undone_iff, or_iff_left (b := h.Completes _ ∧ _) fun hand => hc hand.1]
    · exact absurd ⟨link, peer, rodata, hprep, hc, hatt⟩ hfail
    · refine ⟨e, _, by rw [hexec₂], ?_⟩
      rw [objects_undo_attached hh hu hobjects]
      refine without_congr fun o => ?_
      rw [hprep.undone_iff, Host.done_of_completes hc, and_iff_right hc]
  · refine ⟨e, ns, by rw [hexec], ?_⟩
    ext o
    rw [mem_without, and_iff_left]
    rintro ⟨link, peer, rodata, hprep, -⟩
    exact hnot ⟨link, peer, rodata, hprep⟩

end Add

/-! ## DEL -/

section Del

variable {args : CmdArgs} {conf : NetConf}

/-- DEL gets to work on the interface `link`. -/
structure DelReaches (h : Host) (args : CmdArgs) (ns : Netns) (link : Link) : Prop where
  netns : args.netns ≠ ""
  enter : h.fault .setup .enterNetns = none
  link : linkByName h .setup ns args.ifName = .ok link

theorem delPod_state {cfg : Config} (hlink : linkByName h .setup ns args.ifName = .ok link) :
    (exec (delPod h args cfg) ns).2 =
      (exec (removeIPv4 h link (cfg.setup [])) (exec (detach h link) ns).2).2 := by
  have hquery : exec (query fun ns => linkByName h .setup ns args.ifName : Cmd Link) ns
      = (.ok link, ns) := by
    rw [exec_query, hlink]
  rcases hdet : exec (detach h link) ns with ⟨r, ns₁⟩
  rcases hrem : exec (removeIPv4 h link (cfg.setup [])) ns₁ with ⟨r', ns₂⟩
  rw [delPod, exec_attempt_bind hquery]
  refine (congrArg Prod.snd ((exec_attempt_bind hdet).trans (exec_attempt_bind hrem))).trans ?_
  rcases r with e | ⟨⟩ <;> rcases r' with e' | ⟨⟩ <;> rfl

/-- **DEL takes down the setup of the interface**, whatever fails on the way. -/
theorem cmdDel_state (w : World) (h : Host) (args : CmdArgs) (conf : NetConf) (ns : Netns) :
    (∃ cfg link, parseConfig w conf = .ok cfg ∧ DelReaches h args ns link ∧
      (exec (cmdDel w h args conf) ns).2 =
        (exec (removeIPv4 h link (cfg.setup [])) (exec (detach h link) ns).2).2) ∨
      (¬ ∃ cfg link, parseConfig w conf = .ok cfg ∧ DelReaches h args ns link) ∧
        (exec (cmdDel w h args conf) ns).2 = ns := by
  cases hcfg : parseConfig w conf with
  | error e => exact Or.inr ⟨nofun, by rw [cmdDel, exec_query_bind_error ns hcfg]⟩
  | ok cfg =>
    rw [cmdDel, exec_query_bind_ok ns hcfg]
    by_cases hnetns : args.netns = ""
    · rw [if_pos hnetns]
      exact Or.inr ⟨fun ⟨_, _, _, hr⟩ => hr.netns hnetns, rfl⟩
    · rw [if_neg hnetns, exec_ignoreError]
      cases hf : h.fault .setup .enterNetns with
      | some e =>
        rw [withNetNSPath_of_some hf]
        refine Or.inr ⟨?_, rfl⟩
        rintro ⟨_, _, _, hr⟩
        nomatch hf.symm.trans hr.enter
      | none =>
        rw [withNetNSPath_of_none hf]
        cases hlink : linkByName h .setup ns args.ifName with
        | ok link => exact Or.inl ⟨cfg, link, rfl, ⟨hnetns, hf, hlink⟩, delPod_state hlink⟩
        | error e =>
          refine Or.inr ⟨?_, ?_⟩
          · rintro ⟨_, _, _, hr⟩
            nomatch hlink.symm.trans hr.link
          · have hquery : exec (query fun ns => linkByName h .setup ns args.ifName : Cmd Link) ns
                = (.error e, ns) := by
              rw [exec_query, hlink]
            rw [delPod, exec_attempt_bind hquery]
            show (exec (if e.is .linkNotFound then pure () else throw e) ns).2 = ns
            split <;> rfl

end Del

end CiliumClat.Plugin
