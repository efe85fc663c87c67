import CiliumClat.Refinement.Check

/-!
# What a sequence of commands can do to a namespace

A container runtime calls the plugin again and again: ADD, DEL and CHECK in any order, with whatever
configuration is in force at the time, and any call to the kernel may fail.  A plugin that is killed
half-way is one for which no further call gets through.

Each such *invocation* is confined (`Invocation.confined_after`).  What it puts in is part of the
setup of its own configuration, and that holds on any host.  What it takes out depends on what the
kernel deletes with what: no link on any host, and on Linux only what is on the pod interface or
goes by a key of the setup (`Host.Confines`).  No invocation touches a link, so the interfaces that
these sets speak of are the same at every place of a run, and the confinement of one invocation adds
up to that of the run (`confined_invoke`).
-/

namespace CiliumClat.Plugin

open KeyedTable EarlyExit

/-- The constants that ADD loads the programs with. -/
def Config.rodata (cfg : Config) (pod6 : In6Addr) : CiliumClat.Constants :=
  ⟨cfg.clatPrefix, pod6, cfg.podIPv4.addr, cfg.errorSource⟩

variable {w : World} {h : Host} {args : CmdArgs} {conf : NetConf} {cfg : Config} {res : Result}
  {pod6 : In6Addr} {ns : Netns} {link : Link} {peer : List UInt8}
  {rodata : CiliumClat.Constants} {o : Object}

/-! ## What a command may take out -/

/-- On this host a command takes out only objects with the property `p`, which may depend on the
configuration and on the pod interface. -/
structure Host.Confines (h : Host) (p : Config → Link → Object → Prop) : Prop where
  /-- Where the setup puts an object in. -/
  key : ∀ {w : World} {cfg : Config} {peer : List UInt8} {link : Link}
    {rodata : CiliumClat.Constants} {x o : Object},
    x ∈ installed w (cfg.setup peer) link rodata → o.key = x.key → p cfg link o
  detach : ∀ (cfg : Config) (link : Link) (ns : Netns),
    Sheds (p cfg link) ns.objects (exec (Plugin.detach h link) ns).2.objects
  removeIPv4 : ∀ (cfg : Config) (link : Link) (peer : List UInt8) (ns : Netns),
    Sheds (p cfg link) ns.objects (exec (Plugin.removeIPv4 h link (cfg.setup peer)) ns).2.objects

/-- Where ADD writes is in reach.  The MAC of the peer is no part of a key. -/
theorem Object.claimed_of_key_installed {x : Object}
    (hx : x ∈ installed w (cfg.setup peer) link rodata) (hkey : o.key = x.key) :
    o.Claimed (cfg.setup []) link := by
  rcases List.mem_append.mp hx with hx | hx
  · have hclaimed : o.Claimed (cfg.setup peer) link := claimed_of_key_steps hx hkey
    exact hclaimed
  · rw [List.mem_cons, mem_filterSteps] at hx
    exact claimed_of_onQdisc (onQdisc_of_key hx hkey)

/-- **On Linux** it takes out what is in reach. -/
theorem Host.Linux.confines (hl : h.Linux) :
    h.Confines fun cfg link => Object.Claimed (cfg.setup []) link where
  key hx hkey := Object.claimed_of_key_installed hx hkey
  detach cfg link := by
    refine sheds_detach ?_ fun o => Object.claimed_of_onQdisc
    exact (detachSheds_clatFilterOn hl.toLawful link).mono fun o hon =>
      Object.claimed_of_onQdisc (onQdisc_of_clatFilterOn hon)
  removeIPv4 cfg link peer ns := by
    rw [objects_removeIPv4 hl.toLawful]
    exact .without fun o _ hrem => Object.claimed_of_removes hl hrem

/-- **On any host** it takes out no link. -/
theorem Host.confines_not_isLink (h : Host) : h.Confines fun _ _ o => ¬ o.IsLink where
  key {w cfg peer link rodata x o} hx hkey := by
    cases o with
    | link l =>
      rcases mem_installed.mp hx with rfl | rfl | rfl | rfl | rfl | ⟨hook, rfl⟩ <;> cases hkey
    | _ => exact not_false
  detach cfg link := by
    refine sheds_detach (detachSheds_not_isLink h link) fun o hon => ?_
    cases o with
    | link l => exact hon.elim
    | _ => exact not_false
  removeIPv4 cfg link peer ns := sheds_removeIPv4 h ns link _

section Parts

variable {p : Config → Link → Object → Prop} {q : Object → Prop} {S S' : Set Object}

theorem Sheds.confined {p : Object → Prop} (hs : Sheds p S S') : Confined p q S S' :=
  ⟨fun _ ho => Or.inl (hs.subset ho), hs.keep⟩

/-- Whatever part of the setup ADD gets through, and whatever part of that it undoes. -/
theorem Host.Confines.installSetup (hc : h.Confines p) (henter : h.fault .setup .enterNetns = none)
    (hlink : linkByName h .setup ns args.ifName = .ok link) :
    Confined (p cfg link) (· ∈ installed w (cfg.setup peer) link rodata) ns.objects
      (exec (Plugin.installSetup w h args (cfg.setup peer) rodata) ns).2.objects := by
  have hput {xs : List Object} (hsub : xs.Sublist (installed w (cfg.setup peer) link rodata)) :
      Confined (p cfg link) (· ∈ installed w (cfg.setup peer) link rodata)
        ns.objects (putAll Object.key xs ns.objects) :=
    .putAll ((hsub.map Object.key).nodup nodup_installed)
      (fun _ x hx hkey => hc.key (hsub.subset hx) hkey) fun _ hx => hsub.subset hx
  obtain ⟨-, e, ns₁, hexec, hobjects⟩ | ⟨-, ns₂, hobjects, ⟨-, hexec⟩ | ⟨-, e, hexec⟩⟩ :=
    installSetup_cases w (cfg.setup peer) rodata henter hlink
  · have hdone := hput ((h.done_sublist _).trans (List.sublist_append_left _ _))
    rw [← hobjects] at hdone
    rw [hexec]
    exact hdone.trans (hc.removeIPv4 cfg link peer ns₁).confined
  · rw [hexec, hobjects]
    exact hput (attached_sublist.append_left _)
  · have hsub : (h.attached w ns link rodata).Sublist _ := attached_sublist
    have hdone := hput (hsub.append_left _)
    rw [← hobjects] at hdone
    rw [hexec]
    exact (hdone.trans (hc.detach cfg link ns₂).confined).trans
      (hc.removeIPv4 cfg link peer _).confined

end Parts

/-! ## What ADD may put in -/

/-- The MACs that `peerMAC` may return: that of the host interface, or the one in the previous
result, which is also used if the host interface cannot be looked up. -/
def IsPeer (w : World) (res : Result) (link : Link) (ifName : String) (peer : List UInt8) : Prop :=
  peerOf w res link ifName = some peer ∨ resultMAC w res ifName = some peer

theorem isPeer_of_peerMAC {pl : PodLink} {ifName : String}
    (hpl : pl.peerIndex = link.parentIndex) (hpeer : peerMAC w h pl res ifName = .ok peer) :
    IsPeer w res link ifName peer := by
  cases hf : h.fault .podLink .hostLinkByIndex with
  | none => exact Or.inl ((peerMAC_iff hpl hf).mp hpeer)
  | some e =>
    have hnone : hostPeer w h pl = none := by
      rw [hostPeer, hf, if_neg fun hand => Option.some_ne_none e hand.2]
    rw [peerMAC, hnone, Option.none_or] at hpeer
    refine Or.inr ?_
    cases hmac : resultMAC w res ifName with
    | none =>
      rw [hmac] at hpeer
      cases hpeer
    | some mac =>
      rw [hmac] at hpeer
      cases hpeer
      rfl

/-- Loading never ends with other constants than these. -/
theorem load_eq_ok (hd : Decided w args conf cfg res pod6)
    (hload : load w h (cfg.constants pod6) = .ok rodata) : rodata = cfg.rodata pod6 := by
  have hmasked : { cfg.clatPrefix with w3 := 0 } = cfg.clatPrefix := by rw [← cfg.masked]
  have hpod6 : (Addr.v6 pod6).want6 w "pod address" = .ok pod6 := by
    rw [Addr.want6, hd.not_mapped]
    rfl
  obtain ⟨-, -, hload⟩ := bind_eq_ok.mp hload
  obtain ⟨rodata', hspec, hload⟩ := bind_eq_ok.mp hload
  obtain ⟨-, -, hload⟩ := bind_eq_ok.mp hload
  cases hload
  obtain ⟨-, -, hspec⟩ := bind_eq_ok.mp hspec
  obtain ⟨clatPrefix, hclat, hspec⟩ := bind_eq_ok.mp hspec
  obtain ⟨podIp6, hpod6', hspec⟩ := bind_eq_ok.mp hspec
  obtain ⟨podIp4, hpod4, hspec⟩ := bind_eq_ok.mp hspec
  obtain ⟨errIp4, herr, hspec⟩ := bind_eq_ok.mp hspec
  obtain ⟨-, -, hspec⟩ := bind_eq_ok.mp hspec
  cases hspec
  cases hpod6.symm.trans hpod6'
  cases hpod4
  cases herr
  cases hclat
  rw [hmasked, Config.rodata]

/-! ## Invocations -/

/-- The commands of the plugin. -/
inductive Verb
  | add
  | del
  | check
  deriving DecidableEq, Repr

/-- A call of the plugin: the command and what it is given, and what the kernel does meanwhile. -/
structure Invocation where
  verb : Verb
  world : World
  host : Host
  args : CmdArgs
  conf : NetConf

namespace Invocation

variable {i : Invocation}

/-- What an invocation leaves of a namespace. -/
def after (i : Invocation) (ns : Netns) : Netns :=
  match i.verb with
  | .add => (exec (cmdAdd i.world i.host i.args i.conf) ns).2
  | .del => (exec (cmdDel i.world i.host i.args i.conf) ns).2
  | .check => (exec (cmdCheck i.world i.host i.args i.conf) ns).2

/-- The invocation changes the namespace, and the object has the property `p` for its configuration
and the pod interface. -/
def Within (p : Config → Link → Object → Prop) (i : Invocation) (ns : Netns) (o : Object) : Prop :=
  i.verb ≠ .check ∧ ∃ cfg link, parseConfig i.world i.conf = .ok cfg ∧ link ∈ ns.links ∧
    link.name = i.args.ifName ∧ p cfg link o

/-- The invocation may put the object into the namespace. -/
def Writes (i : Invocation) (ns : Netns) (o : Object) : Prop :=
  i.verb = .add ∧ ∃ cfg res pod6 link peer, Decided i.world i.args i.conf cfg res pod6 ∧
    link ∈ ns.links ∧ link.name = i.args.ifName ∧ IsPeer i.world res link i.args.ifName peer ∧
    o ∈ installed i.world (cfg.setup peer) link (cfg.rodata pod6)

end Invocation

/-- A run of the plugin. -/
def invoke (ns : Netns) (is : List Invocation) : Netns :=
  is.foldl (fun ns i => i.after ns) ns

/-! ## Steps and runs -/

theorem readOnly_withNetNSPath {α : Type} {site : Site} {f : Cmd α} (hf : ReadOnly f) :
    ReadOnly (withNetNSPath h site f) := by
  cases hfault : h.fault site .enterNetns with
  | some e =>
    rw [withNetNSPath_of_some hfault]
    exact readOnly_throw _
  | none =>
    rw [withNetNSPath_of_none hfault]
    exact hf

/-- **CHECK changes nothing**, whatever it finds. -/
theorem readOnly_cmdCheck (w : World) (h : Host) (args : CmdArgs) (conf : NetConf) :
    ReadOnly (cmdCheck w h args conf) := by
  have hstate (cfg : Config) : ReadOnly (checkState h args cfg) :=
    readOnly_withNetNSPath ((readOnly_query _).bind fun _ =>
      (readOnly_query _).bind fun _ => (readOnly_query _).bind fun _ => readOnly_pure _)
  have hsetup (cfg : Config) (res : Result) (pod6 : In6Addr) :
      ReadOnly (checkSetup w h args cfg res pod6) :=
    ReadOnly.bind (exec_inspectPodLink_state h args) fun _ => (readOnly_query _).bind fun _ =>
      (readOnly_query _).bind fun _ => (readOnly_query _).bind fun _ =>
      (readOnly_query _).bind fun _ => readOnly_withNetNSPath ((readOnly_query _).bind fun _ =>
      (readOnly_query _).bind fun _ => readOnly_query _)
  have hpod (cfg : Config) (res : Result) (pod6 : In6Addr) :
      ReadOnly (checkPod w h args cfg res pod6) :=
    (hstate cfg).bind fun _ => .ite (readOnly_pure _)
      (.ite (.ite (readOnly_pure _) (readOnly_throw _)) (hsetup cfg res pod6))
  refine (readOnly_query _).bind fun cfg => ?_
  cases conf.prevResult with
  | none => exact readOnly_throw _
  | some res =>
    dsimp only
    cases cfg.decide (some res) (podNamespace args.args) with
    | error reason => exact readOnly_pure _
    | ok pod6 => exact hpod cfg res pod6

namespace Invocation

variable {i : Invocation}

variable {p : Config → Link → Object → Prop}

/-- **An invocation is confined.** -/
theorem confined_after (hc : i.host.Confines p) (ns : Netns) :
    Confined (i.Within p ns) (i.Writes ns) ns.objects (i.after ns).objects := by
  rcases hverb : i.verb with _ | _ | _
  · have hafter : i.after ns = (exec (cmdAdd i.world i.host i.args i.conf) ns).2 := by
      rw [after, hverb]
    rw [hafter]
    rcases cmdAdd_state i.world i.host i.args i.conf ns with
      ⟨s, link, rodata, hr, hstate⟩ | ⟨-, hstate⟩
    · obtain ⟨cfg, res, pod6, st, peer, hd, -, -, hprep, rfl⟩ := hr
      obtain ⟨-, hl, hn⟩ := linkByName_eq_ok_iff.mp hprep.link
      obtain rfl := load_eq_ok hd hprep.load
      have hpeer : IsPeer i.world res link i.args.ifName peer := by
        obtain ⟨pl, hpl, hpeer⟩ := hprep.podLink
        obtain ⟨-, l, hl', -, rfl⟩ := inspectPodLink_iff.mp (congrArg Prod.fst hpl)
        obtain ⟨-, hmem, hname⟩ := linkByName_eq_ok_iff.mp hl'
        obtain rfl := ns.names l hmem link hl (hname.trans hn.symm)
        exact isPeer_of_peerMAC rfl hpeer
      rw [hstate]
      refine (hc.installSetup hprep.enter hprep.link).mono (fun o ho => ?_) fun o ho => ?_
      · exact ⟨by rw [hverb]; nofun, cfg, link, hd.config, hl, hn, ho⟩
      · exact ⟨hverb, cfg, res, pod6, link, peer, hd, hl, hn, hpeer, ho⟩
    · rw [hstate]
      exact .refl _ _ _
  · have hafter : i.after ns = (exec (cmdDel i.world i.host i.args i.conf) ns).2 := by
      rw [after, hverb]
    rw [hafter]
    rcases cmdDel_state i.world i.host i.args i.conf ns with
      ⟨cfg, link, hcfg, hr, hstate⟩ | ⟨-, hstate⟩
    · obtain ⟨-, hl, hn⟩ := linkByName_eq_ok_iff.mp hr.link
      rw [hstate]
      refine ((hc.detach cfg link ns).trans (hc.removeIPv4 cfg link [] _)).confined.mono
        (fun o ho => ?_) fun _ ho => ho
      exact ⟨by rw [hverb]; nofun, cfg, link, hcfg, hl, hn, ho⟩
    · rw [hstate]
      exact .refl _ _ _
  · have hafter : i.after ns = ns := by
      rw [after, hverb]
      exact readOnly_cmdCheck _ _ _ _ ns
    rw [hafter]
    exact .refl _ _ _

/-- **No invocation touches a link**, on any host. -/
theorem mem_links_after (i : Invocation) (ns : Netns) (l : Link) :
    l ∈ (i.after ns).links ↔ l ∈ ns.links := by
  have hconf := confined_after i.host.confines_not_isLink ns
  rw [← link_mem_objects, ← link_mem_objects]
  constructor
  · intro hl
    rcases hconf.new _ hl with hold | ⟨-, cfg, res, pod6, link, peer, -, -, -, -, hin⟩
    · exact hold
    · simp [mem_installed] at hin
  · intro hl
    refine hconf.keep _ hl ?_
    rintro ⟨-, cfg, link, -, -, -, hnot⟩
    exact hnot trivial

theorem within_congr {ns' : Netns} (hlinks : ∀ l, l ∈ ns'.links ↔ l ∈ ns.links)
    (h : i.Within p ns' o) : i.Within p ns o := by
  obtain ⟨hverb, cfg, link, hcfg, hl, hrest⟩ := h
  exact ⟨hverb, cfg, link, hcfg, (hlinks link).mp hl, hrest⟩

theorem writes_congr {ns' : Netns} (hlinks : ∀ l, l ∈ ns'.links ↔ l ∈ ns.links)
    (h : i.Writes ns' o) : i.Writes ns o := by
  obtain ⟨hverb, cfg, res, pod6, link, peer, hd, hl, hrest⟩ := h
  exact ⟨hverb, cfg, res, pod6, link, peer, hd, (hlinks link).mp hl, hrest⟩

end Invocation

/-- **A run is confined.**  Whatever the configurations and the faults along the way, what is new is
part of the setup of an ADD of the run, and what is gone was where a command of the run deletes. -/
theorem confined_invoke {p : Config → Link → Object → Prop} (ns : Netns) (is : List Invocation)
    (hc : ∀ i ∈ is, i.host.Confines p) :
    Confined (fun o => ∃ i ∈ is, i.Within p ns o) (fun o => ∃ i ∈ is, i.Writes ns o) ns.objects
      (invoke ns is).objects := by
  induction is generalizing ns with
  | nil => exact .refl _ _ _
  | cons i is ih =>
    obtain ⟨hi, his⟩ := List.forall_mem_cons.mp hc
    have hlinks : ∀ l, l ∈ (i.after ns).links ↔ l ∈ ns.links := i.mem_links_after ns
    refine ((Invocation.confined_after hi ns).mono (fun o ho => ?_) fun o ho => ?_).trans
      ((ih (i.after ns) his).mono (fun o => ?_) fun o => ?_)
    · exact ⟨i, List.mem_cons_self, ho⟩
    · exact ⟨i, List.mem_cons_self, ho⟩
    · rintro ⟨j, hj, ho⟩
      exact ⟨j, List.mem_cons_of_mem i hj, j.within_congr hlinks ho⟩
    · rintro ⟨j, hj, ho⟩
      exact ⟨j, List.mem_cons_of_mem i hj, j.writes_congr hlinks ho⟩

/-- What is new after a run, on any hosts. -/
theorem new_invoke {ns : Netns} {is : List Invocation} (ho : o ∈ (invoke ns is).objects) :
    o ∈ ns.objects ∨ ∃ i ∈ is, i.Writes ns o :=
  (confined_invoke ns is fun i _ => i.host.confines_not_isLink).new o ho

theorem mem_links_invoke (ns : Netns) (is : List Invocation) (l : Link) :
    l ∈ (invoke ns is).links ↔ l ∈ ns.links := by
  induction is generalizing ns with
  | nil => exact Iff.rfl
  | cons i is ih => exact (ih (i.after ns)).trans (i.mem_links_after ns l)

end CiliumClat.Plugin
