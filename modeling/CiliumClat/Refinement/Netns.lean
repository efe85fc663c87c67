import CiliumClat.Plugin.Command

/-!
# What the plugin does to a namespace

A namespace is a set of objects: links, addresses, neighbour entries, routes, qdiscs and filters
(`Netns.objects`), and every object has a key.  In these terms a netlink call puts one object in the
place of that with its key, or drops objects, or fails and does nothing.  This module says so of the
calls, and from there of every function that changes a namespace:

* `ConfigureIPv4` and `Attach` put in what they install, up to the first call that fails
  (`configureIPv4_spec`, `attach_spec`);
* `RemoveIPv4` drops what its requests ask for and what goes with the address
  (`objects_removeIPv4`), and `Detach` drops all that is on the interface, unless the qdisc cannot
  be deleted (`objects_detach`, `sheds_detach`).

All of it holds under any faults.  What is assumed of the kernel comes in two strengths: `Lawful` is
enough to follow the commands, and `Linux` also says what a delete spares.
-/

namespace CiliumClat.Plugin

open KeyedTable EarlyExit

/-! ## Objects -/

/-- An object of a namespace. -/
inductive Object
  | link (l : Link)
  | addr (a : IfAddr)
  | neigh (n : Neigh)
  | route (r : Route)
  | qdisc (index : ℕ)
  | filter (f : Filter)
  deriving DecidableEq, Repr

/-- What the kernel knows an object by. -/
inductive Key
  | link (index : ℕ)
  | addr (a : IfAddr)
  | neigh (key : ℕ × UInt32)
  | route (key : Prefix4 × ℕ)
  | qdisc (index : ℕ)
  | filter (key : ℕ × Hook × ℕ × ℕ)
  deriving DecidableEq, Repr

/-- The key of an object. -/
def Object.key : Object → Key
  | .link l => .link l.index
  | .addr a => .addr a
  | .neigh n => .neigh n.key
  | .route r => .route r.key
  | .qdisc index => .qdisc index
  | .filter f => .filter f.key

/-- The namespace has the object. -/
def Netns.Has (ns : Netns) : Object → Prop
  | .link l => l ∈ ns.links
  | .addr a => a ∈ ns.addrs
  | .neigh n => n ∈ ns.neighs
  | .route r => r ∈ ns.routes
  | .qdisc index => index ∈ ns.qdiscs
  | .filter f => f ∈ ns.filters

/-- The objects of a namespace. -/
def Netns.objects (ns : Netns) : Set Object :=
  {o | ns.Has o}

/-- The object is a link. -/
def Object.IsLink : Object → Prop
  | .link _ => True
  | _ => False

instance (ns : Netns) (o : Object) : Decidable (o ∈ ns.objects) :=
  match o with
  | .link l => inferInstanceAs (Decidable (l ∈ ns.links))
  | .addr a => inferInstanceAs (Decidable (a ∈ ns.addrs))
  | .neigh n => inferInstanceAs (Decidable (n ∈ ns.neighs))
  | .route r => inferInstanceAs (Decidable (r ∈ ns.routes))
  | .qdisc index => inferInstanceAs (Decidable (index ∈ ns.qdiscs))
  | .filter f => inferInstanceAs (Decidable (f ∈ ns.filters))

variable {w : World} {h : Host} {ns : Netns} {link : Link} {s : IPv4Setup}

@[simp] theorem link_mem_objects {l : Link} : .link l ∈ ns.objects ↔ l ∈ ns.links := Iff.rfl

@[simp] theorem addr_mem_objects {a : IfAddr} : .addr a ∈ ns.objects ↔ a ∈ ns.addrs := Iff.rfl

@[simp] theorem neigh_mem_objects {n : Neigh} : .neigh n ∈ ns.objects ↔ n ∈ ns.neighs := Iff.rfl

@[simp] theorem route_mem_objects {r : Route} : .route r ∈ ns.objects ↔ r ∈ ns.routes := Iff.rfl

@[simp] theorem qdisc_mem_objects {i : ℕ} : .qdisc i ∈ ns.objects ↔ i ∈ ns.qdiscs := Iff.rfl

@[simp] theorem filter_mem_objects {f : Filter} : .filter f ∈ ns.objects ↔ f ∈ ns.filters := Iff.rfl

/-- Two objects of a namespace with the same key are one. -/
theorem Netns.eq_of_key {o o' : Object} (ho : o ∈ ns.objects) (ho' : o' ∈ ns.objects)
    (hkey : o.key = o'.key) : o = o' := by
  cases o <;> cases o' <;> simp only [Object.key, reduceCtorEq] at hkey
  case link.link l l' => exact congrArg _ (Table.eq_of_key ho ho' (Key.link.inj hkey))
  case addr.addr a a' => exact congrArg _ (Key.addr.inj hkey)
  case neigh.neigh n n' => exact congrArg _ (Table.eq_of_key ho ho' (Key.neigh.inj hkey))
  case route.route r r' => exact congrArg _ (Table.eq_of_key ho ho' (Key.route.inj hkey))
  case qdisc.qdisc i i' => exact congrArg _ (Key.qdisc.inj hkey)
  case filter.filter f f' => exact congrArg _ (Table.eq_of_key ho ho' (Key.filter.inj hkey))

theorem forall_hook {P : Hook → Prop} : (∀ hook, P hook) ↔ P .egress ∧ P .ingress := by
  refine ⟨fun hall => ⟨hall .egress, hall .ingress⟩, ?_⟩
  rintro ⟨hegress, hingress⟩ (_ | _)
  · exact hegress
  · exact hingress

theorem exists_hook {P : Hook → Prop} : (∃ hook, P hook) ↔ P .egress ∨ P .ingress := by
  constructor
  · rintro ⟨_ | _, hp⟩
    · exact Or.inl hp
    · exact Or.inr hp
  · rintro (hp | hp)
    · exact ⟨_, hp⟩
    · exact ⟨_, hp⟩

/-! ## What is assumed of the kernel -/

/-- What the plugin may rely on: the filters of a hook are listed in some order, and a request to
delete a route matches the route it describes, and no route to another destination. -/
structure Host.Lawful (h : Host) : Prop where
  listing : ∀ l, (h.listing l).Perm l
  matches_dst : ∀ {req r : Route}, h.routeMatches req r = true → r.key.1 = req.key.1
  matches_self : ∀ r, h.routeMatches r r = true

/-- The route agrees with every attribute that the request carries.  Link, destination and scope are
always there; next hop, source, protocol, metric and MTU are not sent if they are missing or 0. -/
def Route.Agrees (req r : Route) : Prop :=
  r.linkIndex = req.linkIndex ∧ r.key.1 = req.key.1 ∧ r.scope = req.scope ∧
    (∀ gw ∈ req.gw, r.gw = some gw) ∧ (∀ src ∈ req.src, r.src = some src) ∧
    (req.protocol ≠ 0 → r.protocol = req.protocol) ∧ (req.metric ≠ 0 → r.metric = req.metric) ∧
    (0 < req.mtu → r.mtu = req.mtu)

instance (req r : Route) : Decidable (req.Agrees r) :=
  -- not by going through all 32-bit words
  let _ : Decidable (∀ gw ∈ req.gw, r.gw = some gw) := Option.decidableForallMem req.gw
  let _ : Decidable (∀ src ∈ req.src, r.src = some src) := Option.decidableForallMem req.src
  inferInstanceAs (Decidable (_ ∧ _ ∧ _ ∧ _ ∧ _ ∧ (_ → _) ∧ (_ → _) ∧ (_ → _)))

theorem Route.Agrees.refl (r : Route) : r.Agrees r :=
  ⟨rfl, rfl, rfl, fun _ hgw => hgw, fun _ hsrc => hsrc, fun _ => rfl, fun _ => rfl, fun _ => rfl⟩

/-- Two addresses with their masks are of one network. -/
def Prefix4.SameNet (p q : Prefix4) : Prop :=
  p.bits = q.bits ∧
    (bpfNtohl p.addr).toNat / 2 ^ (32 - p.bits) = (bpfNtohl q.addr).toNat / 2 ^ (32 - q.bits)

instance (p q : Prefix4) : Decidable (p.SameNet q) :=
  inferInstanceAs (Decidable (_ ∧ _))

theorem Prefix4.SameNet.refl (p : Prefix4) : p.SameNet p := ⟨rfl, rfl⟩

/-- No address is left on the link. -/
def Flush.Empties (fl : Flush) (others : Finset IfAddr) (index : ℕ) : Prop :=
  ∀ b ∈ others, b.linkIndex = index → fl.addrs b = true

instance (fl : Flush) (others : Finset IfAddr) (index : ℕ) : Decidable (fl.Empties others index) :=
  inferInstanceAs (Decidable (∀ b ∈ others, b.linkIndex = index → fl.addrs b = true))

/-- **What Linux does with a delete.**  A request to delete a route matches only routes that agree
with all that it carries.  With an address go, if they are not promoted, the secondary addresses of
the same network on the link; the routes that have the address as their source; and, if no address
is left on the link, all routes and all neighbour entries of the link. -/
structure Host.Linux (h : Host) : Prop extends h.Lawful where
  matches_agrees : ∀ {req r : Route}, h.routeMatches req r = true → req.Agrees r
  flush_addr : ∀ {others : Finset IfAddr} {a b : IfAddr}, (h.flush others a).addrs b = true →
    b.linkIndex = a.linkIndex ∧ b.ipNet.SameNet a.ipNet
  flush_neigh : ∀ (others : Finset IfAddr) (a : IfAddr) (n : Neigh),
    (h.flush others a).neighs n = true ↔
      n.linkIndex = a.linkIndex ∧ (h.flush others a).Empties others a.linkIndex
  flush_route : ∀ {others : Finset IfAddr} {a : IfAddr} {r : Route},
    (h.flush others a).routes r = true →
      r.linkIndex = a.linkIndex ∧ (h.flush others a).Empties others a.linkIndex ∨
        r.src = some a.ipNet.addr
  flush_empties : ∀ {others : Finset IfAddr} {a : IfAddr} {r : Route},
    (h.flush others a).Empties others a.linkIndex → r.linkIndex = a.linkIndex →
      (h.flush others a).routes r = true

/-! ## Calls -/

theorem reads_eq_ok_iff {α : Type} {site : Site} {c : Call} {answer : Except Errno α} {a : α} :
    reads h site c answer = .ok a ↔ h.fault site c = none ∧ answer = .ok a := by
  rw [reads]
  cases hf : h.fault site c with
  | some e => exact iff_of_false nofun fun hand => nomatch hand.1
  | none =>
    rw [and_iff_right rfl]
    cases answer with
    | error e => exact iff_of_false nofun nofun
    | ok a' => exact ⟨fun heq => congrArg _ (Except.ok.inj heq), fun heq => by cases heq; rfl⟩

theorem linkByName_eq_ok_iff {site : Site} {name : String} :
    linkByName h site ns name = .ok link ↔
      h.fault site .linkByName = none ∧ link ∈ ns.links ∧ link.name = name := by
  rw [linkByName, reads_eq_ok_iff]
  refine and_congr_right fun _ => ?_
  cases hfind : ns.links.entries.find? fun l => decide (l.name = name) with
  | none =>
    rw [List.find?_eq_none] at hfind
    refine iff_of_false nofun fun hand => hfind link hand.1 ?_
    rw [decide_eq_true_iff]
    exact hand.2
  | some l =>
    have hmem : l ∈ ns.links := List.mem_of_find?_eq_some hfind
    have hname : l.name = name := by
      have htest := List.find?_some hfind
      rwa [decide_eq_true_iff] at htest
    constructor
    · intro heq
      cases heq
      exact ⟨hmem, hname⟩
    · rintro ⟨hmem', hname'⟩
      rw [ns.names l hmem link hmem' (hname.trans hname'.symm)]

theorem withNetNSPath_of_none {α : Type} {site : Site} (hf : h.fault site .enterNetns = none)
    (f : Cmd α) : withNetNSPath h site f = f := by
  rw [withNetNSPath, hf]

theorem withNetNSPath_of_some {α : Type} {site : Site} {e : Errno}
    (hf : h.fault site .enterNetns = some e) (f : Cmd α) :
    withNetNSPath h site f = throw e.error := by
  rw [withNetNSPath, hf]

theorem exec_withNetNSPath_eq_ok {α : Type} {site : Site} {f : Cmd α} {a : α} {ns ns' : Netns} :
    exec (withNetNSPath h site f) ns = (.ok a, ns') ↔
      h.fault site .enterNetns = none ∧ exec f ns = (.ok a, ns') := by
  cases hf : h.fault site .enterNetns with
  | some e =>
    rw [withNetNSPath_of_some hf]
    exact iff_of_false nofun nofun
  | none => rw [withNetNSPath_of_none hf, and_iff_right rfl]

section Writes

variable {c : Call} {act : Netns → Except Errno Netns}

theorem exec_writes :
    exec (writes h c act) ns =
      match h.fault .setup c with
      | some e => (.error e.error, ns)
      | none =>
        match act ns with
        | .error e => (.error e.error, ns)
        | .ok ns' => (.ok (), ns') := rfl

theorem exec_writes_fault {e : Errno} (hf : h.fault .setup c = some e) :
    exec (writes h c act) ns = (.error e.error, ns) := by
  rw [exec_writes, hf]

theorem exec_writes_ok {ns' : Netns} (hf : h.fault .setup c = none) (hact : act ns = .ok ns') :
    exec (writes h c act) ns = (.ok (), ns') := by
  rw [exec_writes, hf, hact]

theorem exec_writes_error {e : Errno} (hf : h.fault .setup c = none) (hact : act ns = .error e) :
    exec (writes h c act) ns = (.error e.error, ns) := by
  rw [exec_writes, hf, hact]

end Writes

/-- The object goes with the qdisc of the interface with the given index. -/
def OnQdisc (index : ℕ) : Object → Prop
  | .qdisc i => i = index
  | .filter f => f.linkIndex = index
  | _ => False

theorem objects_replaceAddr (a : IfAddr) :
    { ns with addrs := ns.addrs.replace a }.objects = put Object.key (.addr a) ns.objects := by
  ext o
  cases o <;> simp [Object.key]

theorem objects_replaceNeigh (n : Neigh) :
    { ns with neighs := ns.neighs.replace n }.objects = put Object.key (.neigh n) ns.objects := by
  ext o
  cases o <;> simp [Object.key]

theorem objects_replaceRoute (r : Route) :
    { ns with routes := ns.routes.replace r }.objects = put Object.key (.route r) ns.objects := by
  ext o
  cases o <;> simp [Object.key]

theorem objects_addQdisc (index : ℕ) :
    (ns.addQdisc index).objects = put Object.key (.qdisc index) ns.objects := by
  ext o
  cases o <;> simp [Object.key, Netns.addQdisc]

theorem objects_setFilter (f : Filter) (hq : f.linkIndex ∈ ns.qdiscs) :
    (ns.setFilter f hq).objects = put Object.key (.filter f) ns.objects := by
  ext o
  cases o <;> simp [Object.key, Netns.setFilter]

theorem objects_delQdisc (index : ℕ) :
    (ns.delQdisc index).objects = without (OnQdisc index) ns.objects := by
  ext o
  cases o <;> simp [OnQdisc, Netns.delQdisc]

theorem objects_delFilter (key : ℕ × Hook × ℕ × ℕ) :
    (ns.delFilter key).objects = without (fun o => o.key = .filter key) ns.objects := by
  ext o
  cases o <;> simp [Object.key, Netns.delFilter]

/-! ## Setting up -/

/-- The objects that a sequence of calls puts in: up to the first call that fails. -/
def Host.done (h : Host) : List (Call × Object) → List Object
  | [] => []
  | step :: steps => if h.fault .setup step.1 = none then step.2 :: h.done steps else []

/-- No call of the sequence fails. -/
def Host.Completes (h : Host) (steps : List (Call × Object)) : Prop :=
  ∀ step ∈ steps, h.fault .setup step.1 = none

instance (steps : List (Call × Object)) : Decidable (h.Completes steps) :=
  inferInstanceAs (Decidable (∀ step ∈ steps, h.fault .setup step.1 = none))

theorem Host.done_sublist (h : Host) (steps : List (Call × Object)) :
    (h.done steps).Sublist (steps.map Prod.snd) := by
  induction steps with
  | nil => exact List.Sublist.slnil
  | cons step steps ih =>
    rw [Host.done, List.map_cons]
    split
    · exact ih.cons_cons step.2
    · exact List.nil_sublist _

theorem Host.done_of_completes {steps : List (Call × Object)} (hc : h.Completes steps) :
    h.done steps = steps.map Prod.snd := by
  induction steps with
  | nil => rfl
  | cons step steps ih =>
    obtain ⟨hstep, hsteps⟩ := List.forall_mem_cons.mp hc
    rw [Host.done, if_pos hstep, ih hsteps, List.map_cons]

/-- **A sequence of calls**: where `P` holds, the program makes them one after the other, puts in
their objects, and stops at the first one that fails. -/
def Performs (h : Host) (P : Netns → Prop) (steps : List (Call × Object)) (p : Cmd Unit) : Prop :=
  ∀ ns, P ns → ∃ r ns', exec p ns = (r, ns') ∧
    ns'.objects = putAll Object.key (h.done steps) ns.objects ∧ (r = .ok () ↔ h.Completes steps)

namespace Performs

variable {P : Netns → Prop} {steps : List (Call × Object)} {p q : Cmd Unit}

theorem writes {c : Call} {x : Object} {act : Netns → Except Errno Netns}
    (hact : ∀ ns, P ns → ∃ ns', act ns = .ok ns' ∧ ns'.objects = put Object.key x ns.objects) :
    Performs h P [(c, x)] (Plugin.writes h c act) := by
  intro ns hP
  rw [Host.Completes, List.forall_mem_singleton, Host.done, Host.done]
  cases hf : h.fault .setup c with
  | some e =>
    refine ⟨_, ns, exec_writes_fault hf, ?_, ?_⟩
    · rw [if_neg (Option.some_ne_none e), putAll_nil]
    · exact iff_of_false nofun nofun
  | none =>
    obtain ⟨ns', hok, hobjects⟩ := hact ns hP
    refine ⟨_, ns', exec_writes_ok hf hok, ?_, iff_of_true rfl rfl⟩
    rw [if_pos rfl, putAll_cons, putAll_nil, hobjects]

theorem mapError {f : GoError → GoError} (hp : Performs h P steps p) :
    Performs h P steps (EarlyExit.mapError f p) := by
  intro ns hP
  obtain ⟨r, ns', hexec, hobjects, hok⟩ := hp ns hP
  refine ⟨r.mapError f, ns', ?_, hobjects, ?_⟩
  · rw [exec_mapError, hexec]
  · rw [← hok]
    cases r with
    | ok a => exact Iff.rfl
    | error e => exact iff_of_false nofun nofun

/-- One call, and then the others, if it does not disturb what they need. -/
theorem bind {step : Call × Object} (hp : Performs h P [step] p) (hq : Performs h P steps q)
    (hP : ∀ ns ns', P ns → ns'.objects = put Object.key step.2 ns.objects → P ns') :
    Performs h P (step :: steps) (p >>= fun _ => q) := by
  intro ns hns
  obtain ⟨r, ns', hexec, hobjects, hok⟩ := hp ns hns
  rw [Host.Completes, List.forall_mem_singleton] at hok
  rw [Host.done, Host.done] at hobjects
  rw [Host.Completes, List.forall_mem_cons, Host.done]
  cases r with
  | error e =>
    have hf : ¬ h.fault .setup step.1 = none := fun hf => nomatch hok.mpr hf
    rw [if_neg hf] at hobjects ⊢
    exact ⟨_, ns', exec_bind_error hexec, hobjects, iff_of_false nofun fun hall => hf hall.1⟩
  | ok a =>
    have hf : h.fault .setup step.1 = none := hok.mp rfl
    rw [if_pos hf, putAll_cons, putAll_nil] at hobjects
    obtain ⟨r', ns'', hexec', hobjects', hok'⟩ := hq ns' (hP ns ns' hns hobjects)
    rw [if_pos hf]
    refine ⟨r', ns'', (exec_bind_ok hexec).trans hexec', ?_, ?_⟩
    · rw [hobjects', hobjects, putAll_cons]
    · rw [hok']
      exact ⟨fun hall => ⟨hf, hall⟩, fun hall => hall.2⟩

end Performs

/-- What `ConfigureIPv4` puts in, and by which calls. -/
def IPv4Setup.steps (s : IPv4Setup) (link : Link) : List (Call × Object) :=
  [(.addrReplace, .addr (s.addr link)), (.neighSet, .neigh (s.neigh link)),
    (.routeReplace .gateway, .route (s.gatewayRoute link)),
    (.routeReplace .default, .route (s.defaultRoute link))]

theorem mem_steps {x : Object} :
    x ∈ (s.steps link).map Prod.snd ↔
      x = .addr (s.addr link) ∨ x = .neigh (s.neigh link) ∨ x = .route (s.gatewayRoute link) ∨
        x = .route (s.defaultRoute link) := by
  simp [IPv4Setup.steps]

/-- The objects under the keys that `ConfigureIPv4` writes to. -/
theorem cases_of_key_steps {x o : Object} (hx : x ∈ (s.steps link).map Prod.snd)
    (hkey : o.key = x.key) :
    o = .addr (s.addr link) ∨ (∃ n, o = .neigh n ∧ n.key = (s.neigh link).key) ∨
      ∃ r, o = .route r ∧
        (r.key = (s.gatewayRoute link).key ∨ r.key = (s.defaultRoute link).key) := by
  rcases mem_steps.mp hx with rfl | rfl | rfl | rfl <;> cases o <;>
    simp only [Object.key, reduceCtorEq] at hkey
  case addr a => exact Or.inl (congrArg Object.addr (Key.addr.inj hkey))
  case neigh n => exact Or.inr (Or.inl ⟨n, rfl, Key.neigh.inj hkey⟩)
  case route r => exact Or.inr (Or.inr ⟨r, rfl, Or.inl (Key.route.inj hkey)⟩)
  case route r => exact Or.inr (Or.inr ⟨r, rfl, Or.inr (Key.route.inj hkey)⟩)

theorem configureIPv4_spec (h : Host) (link : Link) (s : IPv4Setup) :
    Performs h (fun _ => True) (s.steps link) (configureIPv4 h link s) := by
  refine .bind (.mapError (.writes fun ns _ => ?_)) (.bind (.mapError (.writes fun ns _ => ?_))
    (.bind (.mapError (.writes fun ns _ => ?_)) (.mapError (.writes fun ns _ => ?_)) ?_) ?_) ?_
  · exact ⟨_, rfl, objects_replaceAddr _⟩
  · exact ⟨_, rfl, objects_replaceNeigh _⟩
  · exact ⟨_, rfl, objects_replaceRoute _⟩
  · exact ⟨_, rfl, objects_replaceRoute _⟩
  all_goals exact fun _ _ _ _ => trivial

/-- The filters that `Attach` puts on the qdisc. -/
def filterSteps (w : World) (link : Link) (rodata : CiliumClat.Constants) : List (Call × Object) :=
  [(.filterReplace .egress, .filter (bpfFilter w link rodata .egress)),
    (.filterReplace .ingress, .filter (bpfFilter w link rodata .ingress))]

theorem mem_filterSteps {rodata : CiliumClat.Constants} {x : Object} :
    x ∈ (filterSteps w link rodata).map Prod.snd ↔
      ∃ hook, x = .filter (bpfFilter w link rodata hook) := by
  rw [exists_hook]
  simp [filterSteps]

/-- `Attach` gets a qdisc: the call does not fail, or says that there is one and does not lie. -/
def QdiscReady (h : Host) (ns : Netns) (link : Link) : Prop :=
  h.fault .setup .qdiscAdd = none ∨
    h.fault .setup .qdiscAdd = some .eexist ∧ link.index ∈ ns.qdiscs

instance : Decidable (QdiscReady h ns link) :=
  inferInstanceAs (Decidable (_ ∨ _ ∧ _))

theorem put_qdisc (hq : link.index ∈ ns.qdiscs) :
    put Object.key (.qdisc link.index) ns.objects = ns.objects :=
  put_of_mem hq fun _ ho hkey => Netns.eq_of_key ho hq hkey

theorem ensureQdisc_spec (hready : QdiscReady h ns link) :
    ∃ ns', exec (ensureQdisc h link) ns = (.ok (), ns') ∧ link.index ∈ ns'.qdiscs ∧
      ns'.objects = put Object.key (.qdisc link.index) ns.objects := by
  have hexists (he : exec (qdiscAdd h link.index) ns = (.error Errno.eexist.error, ns))
      (hq : link.index ∈ ns.qdiscs) : ∃ ns', exec (ensureQdisc h link) ns = (.ok (), ns') ∧
        link.index ∈ ns'.qdiscs ∧
        ns'.objects = put Object.key (.qdisc link.index) ns.objects := by
    refine ⟨ns, ?_, hq, (put_qdisc hq).symm⟩
    rw [ensureQdisc, exec_bind, exec_attempt, he]
    rfl
  rcases hready with hf | ⟨hf, hq⟩
  · by_cases hq : link.index ∈ ns.qdiscs
    · exact hexists (exec_writes_error hf (if_pos hq)) hq
    · refine ⟨ns.addQdisc link.index, ?_, ?_, objects_addQdisc _⟩
      · rw [ensureQdisc, exec_bind, exec_attempt, qdiscAdd, exec_writes_ok hf (if_neg hq)]
        rfl
      · exact Table.mem_replace.mpr (Or.inl rfl)
  · exact hexists (exec_writes_fault hf) hq

theorem attach_spec (w : World) (rodata : CiliumClat.Constants) (hready : QdiscReady h ns link) :
    ∃ r ns', exec (attach w h link rodata) ns = (r, ns') ∧
      ns'.objects = putAll Object.key (.qdisc link.index :: h.done (filterSteps w link rodata))
        ns.objects ∧
      (r = .ok () ↔ h.Completes (filterSteps w link rodata)) := by
  obtain ⟨ns₁, hexec, hq, hobjects⟩ := ensureQdisc_spec hready
  have hfilters : Performs h (fun ns => link.index ∈ ns.qdiscs) (filterSteps w link rodata) (do
      mapError (GoError.wrap s!"attach {programName .egress}")
        (filterReplace h (bpfFilter w link rodata .egress))
      mapError (GoError.wrap s!"attach {programName .ingress}")
        (filterReplace h (bpfFilter w link rodata .ingress))) := by
    refine .bind (.mapError (.writes fun ns hns => ?_)) (.mapError (.writes fun ns hns => ?_))
      fun ns ns' hns hput => ?_
    · exact ⟨_, dif_pos hns, objects_setFilter _ hns⟩
    · exact ⟨_, dif_pos hns, objects_setFilter _ hns⟩
    · rw [← qdisc_mem_objects, hput]
      exact Or.inr ⟨hns, nofun⟩
  obtain ⟨r, ns', hexec', hobjects', hok⟩ := hfilters ns₁ hq
  refine ⟨r, ns', ?_, ?_, hok⟩
  · rw [attach, exec_bind_ok hexec, hexec']
  · rw [hobjects', hobjects, putAll_cons]

theorem attach_of_not_ready (w : World) (rodata : CiliumClat.Constants)
    (hready : ¬ QdiscReady h ns link) : ∃ e, exec (attach w h link rodata) ns = (.error e, ns) := by
  rw [QdiscReady, not_or, not_and] at hready
  obtain ⟨hfault, habsent⟩ := hready
  obtain ⟨e, hf⟩ := Option.ne_none_iff_exists'.mp hfault
  have hadd : exec (qdiscAdd h link.index) ns = (.error e.error, ns) := exec_writes_fault hf
  by_cases he : e = .eexist
  · -- the kernel claims that there is a qdisc, and then has none to put the filter on
    subst he
    have hensure : exec (ensureQdisc h link) ns = (.ok (), ns) := by
      rw [ensureQdisc, exec_bind, exec_attempt, hadd]
      rfl
    have hfilter : ∃ e, exec (filterReplace h (bpfFilter w link rodata .egress)) ns
        = (.error e, ns) := by
      cases hf' : h.fault .setup (.filterReplace .egress) with
      | some e => exact ⟨_, exec_writes_fault hf'⟩
      | none => exact ⟨_, exec_writes_error hf' (dif_neg (habsent hf))⟩
    obtain ⟨e, hfilter⟩ := hfilter
    have hwrapped : exec (mapError (GoError.wrap s!"attach {programName .egress}")
        (filterReplace h (bpfFilter w link rodata .egress))) ns
          = (.error (e.wrap s!"attach {programName .egress}"), ns) := by
      rw [exec_mapError, hfilter]
      rfl
    exact ⟨_, (exec_bind_ok hensure).trans (exec_bind_error hwrapped)⟩
  · have hne : ¬ e.error.is .eexist = true := by
      rw [GoError.is, decide_eq_true_iff, Errno.error, List.mem_singleton]
      exact fun heq => he heq.symm
    have hensure : exec (ensureQdisc h link) ns
        = (.error (e.error.wrap s!"add clsact qdisc on {link.name}"), ns) := by
      rw [ensureQdisc, exec_bind, exec_attempt, hadd]
      show exec (if e.error.is .eexist = true then pure () else
        throw (e.error.wrap s!"add clsact qdisc on {link.name}")) ns = _
      rw [if_neg hne, exec_throw]
    exact ⟨_, exec_bind_error hensure⟩

/-! ## Taking down -/

/-- `S'` is `S` without some of the objects with the property `p`. -/
structure Sheds (p : Object → Prop) (S S' : Set Object) : Prop where
  subset : S' ⊆ S
  keep : ∀ o ∈ S, ¬ p o → o ∈ S'

namespace Sheds

variable {p : Object → Prop} {S S' S'' : Set Object}

theorem refl (p : Object → Prop) (S : Set Object) : Sheds p S S :=
  ⟨Set.Subset.rfl, fun _ ho _ => ho⟩

theorem trans (hS : Sheds p S S') (hS' : Sheds p S' S'') : Sheds p S S'' :=
  ⟨hS'.subset.trans hS.subset, fun o ho hp => hS'.keep o (hS.keep o ho hp) hp⟩

theorem without {q : Object → Prop} (hq : ∀ o ∈ S, q o → p o) :
    Sheds p S (KeyedTable.without q S) :=
  ⟨fun _ ho => ho.1, fun o ho hp => ⟨ho, fun ho' => hp (hq o ho ho')⟩⟩

end Sheds

section Deletes

/-- A call that deletes what is there, and fails where there is nothing to delete. -/
theorem objects_deletes {c : Call} {act : Netns → Except Errno Netns} {ns₁ : Netns} {e : Errno}
    {p : Object → Prop} {test : Prop} [Decidable test]
    (hact : act ns = if test then .ok ns₁ else .error e)
    (hdeleted : test → ns₁.objects = without p ns.objects)
    (habsent : ¬ test → ∀ o ∈ ns.objects, ¬ p o) :
    (exec (writes h c act) ns).2.objects =
      without (fun o => h.fault .setup c = none ∧ p o) ns.objects := by
  have hnone (hp : ∀ o ∈ ns.objects, ¬ (h.fault .setup c = none ∧ p o)) :
      ns.objects = without (fun o => h.fault .setup c = none ∧ p o) ns.objects := by
    ext o
    exact ⟨fun ho => ⟨ho, hp o ho⟩, fun ho => ho.1⟩
  by_cases hf : h.fault .setup c = none
  · by_cases htest : test
    · rw [if_pos htest] at hact
      rw [exec_writes_ok hf hact, hdeleted htest]
      ext o
      rw [mem_without, mem_without, and_iff_right hf]
    · rw [if_neg htest] at hact
      rw [exec_writes_error hf hact]
      exact hnone fun o ho hp => habsent htest o ho hp.2
  · obtain ⟨e, he⟩ := Option.ne_none_iff_exists'.mp hf
    rw [exec_writes_fault he]
    exact hnone fun o _ hp => hf hp.1

/-- The object goes with the address. -/
def Flush.Takes (fl : Flush) : Object → Prop
  | .addr a => fl.addrs a = true
  | .neigh n => fl.neighs n = true
  | .route r => fl.routes r = true
  | _ => False

/-- The address is among the objects `S`, and `o` is it or goes with it when it is deleted. -/
def Host.GoesWith (h : Host) (S : Set Object) (a : IfAddr) (o : Object) : Prop :=
  .addr a ∈ S ∧ (o = .addr a ∨ ∃ others : Finset IfAddr,
    (∀ b, b ∈ others ↔ .addr b ∈ S ∧ b ≠ a) ∧ (h.flush others a).Takes o)

/-- What goes with an address depends on the addresses that are there. -/
theorem Host.goesWith_congr {S S' : Set Object} (hS : ∀ a, .addr a ∈ S ↔ .addr a ∈ S')
    (a : IfAddr) (o : Object) : h.GoesWith S a o ↔ h.GoesWith S' a o := by
  simp only [GoesWith, hS]

theorem Host.goesWith_without {S : Set Object} {p : Object → Prop} (hp : ∀ a, ¬ p (.addr a))
    (a : IfAddr) (o : Object) : h.GoesWith (without p S) a o ↔ h.GoesWith S a o :=
  Host.goesWith_congr (fun a => and_iff_left (hp a)) a o

theorem Host.goesWith_iff {S : Set Object} {a : IfAddr} {others : Finset IfAddr}
    (hothers : ∀ b, b ∈ others ↔ .addr b ∈ S ∧ b ≠ a) (o : Object) :
    h.GoesWith S a o ↔ .addr a ∈ S ∧ (o = .addr a ∨ (h.flush others a).Takes o) := by
  refine and_congr_right fun _ => or_congr_right ⟨?_, fun htakes => ⟨others, hothers, htakes⟩⟩
  rintro ⟨others', hothers', htakes⟩
  have heq : others' = others := Finset.ext fun b => (hothers' b).trans (hothers b).symm
  rwa [heq] at htakes

theorem Host.GoesWith.not_isLink {S : Set Object} {a : IfAddr} {o : Object}
    (hgoes : h.GoesWith S a o) : ¬ o.IsLink := by
  obtain ⟨-, rfl | ⟨others, -, htakes⟩⟩ := hgoes
  · exact not_false
  · cases o with
    | link l => exact htakes.elim
    | _ => exact not_false

/-- The addresses of a namespace but one. -/
theorem mem_others {a b : IfAddr} :
    b ∈ ns.addrs.entries.toFinset.erase a ↔ .addr b ∈ ns.objects ∧ b ≠ a := by
  rw [Finset.mem_erase, List.mem_toFinset, and_comm]
  exact Iff.rfl

theorem objects_delAddr (a : IfAddr) (fl : Flush) :
    (ns.delAddr a fl).objects = without (fun o => o = .addr a ∨ fl.Takes o) ns.objects := by
  ext o
  cases o <;> simp [Netns.delAddr, Flush.Takes]

theorem objects_addrDel (h : Host) (ns : Netns) (a : IfAddr) :
    (exec (addrDel h a) ns).2.objects =
      without (fun o => h.fault .setup .addrDel = none ∧ h.GoesWith ns.objects a o) ns.objects := by
  refine objects_deletes rfl (fun hmem => ?_) fun habsent o _ hgoes => habsent hgoes.1
  rw [objects_delAddr]
  refine without_congr fun o => ?_
  rw [Host.goesWith_iff fun b => mem_others]
  exact (and_iff_right hmem).symm

theorem objects_neighDel (h : Host) (ns : Netns) (n : Neigh) :
    (exec (neighDel h n) ns).2.objects =
      without (fun o => h.fault .setup .neighDel = none ∧ o.key = .neigh n.key) ns.objects := by
  refine objects_deletes rfl (fun _ => ?_) ?_
  · ext o
    cases o <;> simp [Object.key]
  · intro habsent o ho hkey
    cases o <;> simp only [Object.key, reduceCtorEq] at hkey
    case neigh m => exact habsent ⟨m, ho, Key.neigh.inj hkey⟩

/-- Of the routes in `S` that match the request, `r` is the one with the least metric. -/
def Host.Picks (h : Host) (S : Set Object) (req r : Route) : Prop :=
  h.routeMatches req r = true ∧
    ∀ r', .route r' ∈ S → h.routeMatches req r' = true → r.metric ≤ r'.metric

theorem Host.picks_eq_true_iff {req r : Route} :
    h.picks ns req r = true ↔ h.Picks ns.objects req r := by
  rw [Host.picks, Bool.and_eq_true, List.all_eq_true]
  refine and_congr_right fun _ => forall_congr' fun r' => imp_congr_right fun _ => ?_
  cases h.routeMatches req r' <;> simp

/-- Which route is deleted depends on the routes that match. -/
theorem Host.picks_congr {S S' : Set Object} {req : Route}
    (hS : ∀ r, h.routeMatches req r = true → (.route r ∈ S ↔ .route r ∈ S')) (r : Route) :
    h.Picks S req r ↔ h.Picks S' req r := by
  refine and_congr_right fun _ => forall_congr' fun r' => ?_
  constructor
  · intro hle hmem hmatch
    exact hle ((hS r' hmatch).mpr hmem) hmatch
  · intro hle hmem hmatch
    exact hle ((hS r' hmatch).mp hmem) hmatch

theorem objects_routeDel (h : Host) (ns : Netns) (kind : RouteKind) (req : Route) :
    (exec (routeDel h kind req) ns).2.objects =
      without (fun o => h.fault .setup (.routeDel kind) = none ∧
        ∃ r, o = .route r ∧ h.Picks ns.objects req r) ns.objects := by
  refine objects_deletes rfl (fun _ => ?_) ?_
  · ext o
    cases o <;> simp [Bool.eq_false_iff, Host.picks_eq_true_iff]
  · rintro habsent o ho ⟨r, rfl, hmatch, -⟩
    exact habsent ⟨r, ho, hmatch⟩

end Deletes

/-- **What `RemoveIPv4` takes out** of a namespace with the objects `S`: the routes that its
requests pick, the neighbour entry, and the address with what goes with it, each if the call does
not fail. -/
def Host.Removes (h : Host) (s : IPv4Setup) (link : Link) (S : Set Object) (o : Object) : Prop :=
  (h.fault .setup (.routeDel .default) = none ∧
      ∃ r, o = .route r ∧ h.Picks S (s.defaultRoute link) r) ∨
    (h.fault .setup (.routeDel .gateway) = none ∧
      ∃ r, o = .route r ∧ h.Picks S (s.gatewayRoute link) r) ∨
    (h.fault .setup .neighDel = none ∧ o.key = .neigh (s.neigh link).key) ∨
    h.fault .setup .addrDel = none ∧ h.GoesWith S (s.addr link) o

/-- What is taken out depends on the addresses and the routes that are there. -/
theorem Host.removes_congr {S S' : Set Object} (haddr : ∀ a, .addr a ∈ S ↔ .addr a ∈ S')
    (hroute : ∀ r, .route r ∈ S ↔ .route r ∈ S') (o : Object) :
    h.Removes s link S o ↔ h.Removes s link S' o := by
  simp only [Removes, Host.goesWith_congr haddr, Picks, hroute]

theorem Host.Removes.not_isLink {S : Set Object} {o : Object} (hrem : h.Removes s link S o) :
    ¬ o.IsLink := by
  rcases hrem with ⟨-, r, rfl, -⟩ | ⟨-, r, rfl, -⟩ | ⟨-, hkey⟩ | ⟨-, hgoes⟩
  · exact not_false
  · exact not_false
  · cases o with
    | neigh n => exact not_false
    | _ => cases hkey
  · exact hgoes.not_isLink

theorem exec_removeStep (context : String) (call : Cmd Unit) (errs : List GoError) (ns : Netns) :
    ∃ errs', exec (removeStep context call errs) ns = (.ok errs', (exec call ns).2) :=
  ⟨_, rfl⟩

@[simp] theorem exec_failJoined_state (errs : List GoError) (ns : Netns) :
    (exec (failJoined errs) ns).2 = ns := by
  rw [failJoined]
  cases errorsJoin errs <;> rfl

@[simp] theorem exec_ignoreError (f : Cmd Unit) (ns : Netns) :
    exec (ignoreError f) ns = (.ok (), (exec f ns).2) := rfl

/-- No route matches both requests of `RemoveIPv4`. -/
theorem not_matches_both (hh : h.Lawful) {r : Route}
    (hdefault : h.routeMatches (s.defaultRoute link) r = true) :
    ¬ h.routeMatches (s.gatewayRoute link) r = true := by
  intro hgateway
  have hbits : (0 : ℕ) = 32 := congrArg Prefix4.bits
    ((hh.matches_dst hdefault).symm.trans (hh.matches_dst hgateway))
  nomatch hbits

/-- `RemoveIPv4` makes its four requests one after the other, whatever fails. -/
theorem exec_removeIPv4_state (h : Host) (ns : Netns) (link : Link) (s : IPv4Setup) :
    (exec (removeIPv4 h link s) ns).2 =
      (exec (addrDel h (s.addr link)) (exec (neighDel h (s.neigh link))
        (exec (routeDel h .gateway (s.gatewayRoute link))
          (exec (routeDel h .default (s.defaultRoute link)) ns).2).2).2).2 := by
  obtain ⟨errs₁, h₁⟩ := exec_removeStep "delete default route"
    (routeDel h .default (s.defaultRoute link)) [] ns
  obtain ⟨errs₂, h₂⟩ := exec_removeStep "delete gateway route"
    (routeDel h .gateway (s.gatewayRoute link)) errs₁
    (exec (routeDel h .default (s.defaultRoute link)) ns).2
  obtain ⟨errs₃, h₃⟩ := exec_removeStep "delete neighbour" (neighDel h (s.neigh link)) errs₂
    (exec (routeDel h .gateway (s.gatewayRoute link))
      (exec (routeDel h .default (s.defaultRoute link)) ns).2).2
  obtain ⟨errs₄, h₄⟩ := exec_removeStep "delete address" (addrDel h (s.addr link)) errs₃
    (exec (neighDel h (s.neigh link)) (exec (routeDel h .gateway (s.gatewayRoute link))
      (exec (routeDel h .default (s.defaultRoute link)) ns).2).2).2
  rw [removeIPv4, exec_bind_ok h₁, exec_bind_ok h₂, exec_bind_ok h₃, exec_bind_ok h₄,
    exec_failJoined_state]

/-- **What `RemoveIPv4` leaves.** -/
theorem objects_removeIPv4 (hh : h.Lawful) (ns : Netns) (link : Link) (s : IPv4Setup) :
    (exec (removeIPv4 h link s) ns).2.objects =
      without (h.Removes s link ns.objects) ns.objects := by
  rw [exec_removeIPv4_state, objects_addrDel, objects_neighDel, objects_routeDel, objects_routeDel,
    without_without, without_without, without_without]
  -- the requests do not get into each other's way
  have hgateway (r : Route) : h.Picks (without (fun o =>
      h.fault .setup (.routeDel .default) = none ∧
        ∃ r, o = .route r ∧ h.Picks ns.objects (s.defaultRoute link) r) ns.objects)
      (s.gatewayRoute link) r ↔ h.Picks ns.objects (s.gatewayRoute link) r := by
    refine Host.picks_congr (fun r hmatch => and_iff_left ?_) r
    rintro ⟨-, r', heq, hpicks⟩
    obtain rfl := Object.route.inj heq
    exact not_matches_both hh hpicks.1 hmatch
  simp only [hgateway]
  refine without_congr fun o => ?_
  rw [Host.goesWith_without, Host.goesWith_without, Host.goesWith_without, Host.Removes]
  all_goals simp [Object.key]

/-- The requests of `RemoveIPv4` delete no link. -/
theorem sheds_removeIPv4 (h : Host) (ns : Netns) (link : Link) (s : IPv4Setup) :
    Sheds (fun o => ¬ o.IsLink) ns.objects (exec (removeIPv4 h link s) ns).2.objects := by
  have hroute (ns : Netns) (kind : RouteKind) (req : Route) :
      Sheds (fun o => ¬ o.IsLink) ns.objects (exec (routeDel h kind req) ns).2.objects := by
    rw [objects_routeDel]
    refine .without ?_
    rintro o - ⟨-, r, rfl, -⟩
    exact not_false
  have hneigh (ns : Netns) (n : Neigh) :
      Sheds (fun o => ¬ o.IsLink) ns.objects (exec (neighDel h n) ns).2.objects := by
    rw [objects_neighDel]
    refine .without fun o _ hdel => ?_
    cases o with
    | neigh m => exact not_false
    | _ => cases hdel.2
  have haddr (ns : Netns) (a : IfAddr) :
      Sheds (fun o => ¬ o.IsLink) ns.objects (exec (addrDel h a) ns).2.objects := by
    rw [objects_addrDel]
    exact .without fun o _ hdel => hdel.2.not_isLink
  rw [exec_removeIPv4_state]
  exact (((hroute _ _ _).trans (hroute _ _ _)).trans (hneigh _ _)).trans (haddr _ _)

/-- A filter of the plugin on the interface with the given index, by its name. -/
def ClatFilterOn (index : ℕ) : Object → Prop
  | .filter f => f.linkIndex = index ∧ f.clatName ≠ none
  | _ => False

theorem objects_filterDel (h : Host) (ns : Netns) (f : Filter) :
    (exec (filterDel h f) ns).2.objects =
      without (fun o => h.fault .setup (.filterDel f.key) = none ∧ o.key = .filter f.key)
        ns.objects := by
  refine objects_deletes rfl (fun _ => objects_delFilter _) fun habsent o ho hkey => ?_
  cases o <;> simp only [Object.key, reduceCtorEq] at hkey
  case filter g => exact habsent ⟨g, ho, Key.filter.inj hkey⟩

/-- To delete the filters of the plugin that are listed on the interface takes out only what is in
`p`. -/
def Host.DetachSheds (h : Host) (link : Link) (p : Object → Prop) : Prop :=
  ∀ (ns₀ : Netns) (parent : Hook) (fs : List Filter), filterList h .setup ns₀ link parent = .ok fs →
    ∀ f ∈ fs, f.clatName ≠ none → ∀ ns : Netns, ns.objects ⊆ ns₀.objects →
      Sheds p ns.objects (exec (filterDel h f) ns).2.objects

theorem Host.DetachSheds.mono {p q : Object → Prop} (hpq : ∀ o, p o → q o)
    (hsheds : h.DetachSheds link p) : h.DetachSheds link q := by
  intro ns₀ parent fs hlist f hf hname ns hsub
  obtain ⟨hsubset, hkeep⟩ := hsheds ns₀ parent fs hlist f hf hname ns hsub
  exact ⟨hsubset, fun o ho hnot => hkeep o ho fun hp => hnot (hpq o hp)⟩

/-- What `FilterList` lists is there. -/
theorem mem_of_filterList (hh : h.Lawful) {site : Site} {parent : Hook} {fs : List Filter}
    (hlist : filterList h site ns link parent = .ok fs) :
    ∀ f ∈ fs, f ∈ ns.filters ∧ f.linkIndex = link.index ∧ f.parent = parent := by
  have hanswer := (reads_eq_ok_iff.mp hlist).2
  by_cases hq : link.index ∈ ns.qdiscs
  · rw [if_pos hq] at hanswer
    cases hanswer
    intro f hf
    have hmem := (hh.listing _).mem_iff.mp hf
    rw [List.mem_filter, decide_eq_true_iff] at hmem
    exact hmem
  · rw [if_neg hq] at hanswer
    cases hno : h.noQdisc with
    | some e =>
      rw [hno] at hanswer
      nomatch hanswer
    | none =>
      rw [hno] at hanswer
      cases hanswer
      exact nofun

/-- `Detach` deletes its own filters. -/
theorem detachSheds_clatFilterOn (hh : h.Lawful) (link : Link) :
    h.DetachSheds link (ClatFilterOn link.index) := by
  intro ns₀ parent fs hlist f hf hname ns hsub
  obtain ⟨hmem, hindex, -⟩ := mem_of_filterList hh hlist f hf
  rw [objects_filterDel]
  refine .without fun o ho hdel => ?_
  -- a filter with this key is the one that was listed
  have ho₀ : .filter f ∈ ns₀.objects := hmem
  rw [Netns.eq_of_key (hsub ho) ho₀ hdel.2]
  exact ⟨hindex, hname⟩

/-- A filter is not a link. -/
theorem detachSheds_not_isLink (h : Host) (link : Link) :
    h.DetachSheds link fun o => ¬ o.IsLink := by
  intro ns₀ parent fs _ f _ _ ns _
  rw [objects_filterDel]
  refine .without fun o _ hdel => ?_
  cases o with
  | filter g => exact not_false
  | _ => cases hdel.2

section Detach

variable {p : Object → Prop}

theorem sheds_detachFilters {ns₀ : Netns} (fs : List Filter)
    (hfs : ∀ f ∈ fs, f.clatName ≠ none → ∀ ns : Netns, ns.objects ⊆ ns₀.objects →
      Sheds p ns.objects (exec (filterDel h f) ns).2.objects) (errs : List GoError)
    (hsub : ns.objects ⊆ ns₀.objects) :
    ∃ errs' ns', exec (detachFilters h fs errs) ns = (.ok errs', ns') ∧
      Sheds p ns.objects ns'.objects := by
  induction fs generalizing ns errs with
  | nil => exact ⟨errs, ns, rfl, Sheds.refl _ _⟩
  | cons f fs ih =>
    obtain ⟨hf, hrest⟩ := List.forall_mem_cons.mp hfs
    rw [detachFilters]
    cases hname : f.clatName with
    | none => exact ih hrest errs hsub
    | some name =>
      have hdel := hf (by rw [hname]; nofun) ns hsub
      rcases hexec : exec (filterDel h f) ns with ⟨r, ns₁⟩
      rw [hexec] at hdel
      rw [exec_attempt_bind hexec]
      -- whether the call failed or not, the loop goes on
      cases r with
      | ok a =>
        obtain ⟨errs', ns', hrun, hsheds⟩ := ih hrest errs (hdel.subset.trans hsub)
        exact ⟨errs', ns', hrun, hdel.trans hsheds⟩
      | error e =>
        obtain ⟨errs', ns', hrun, hsheds⟩ := ih hrest
          (if e.is .enoent then errs else errs ++ [e.wrap s!"delete filter {name}"])
          (hdel.subset.trans hsub)
        exact ⟨errs', ns', hrun, hdel.trans hsheds⟩

theorem sheds_detachHook (hsheds : h.DetachSheds link p) (ns : Netns) (parent : Hook)
    (errs : List GoError) :
    ∃ errs' ns', exec (detachHook h link parent errs) ns = (.ok errs', ns') ∧
      Sheds p ns.objects ns'.objects := by
  rw [detachHook, exec_bind, exec_attempt, exec_query]
  cases hlist : filterList h .setup ns link parent with
  | error e => exact ⟨_, ns, rfl, Sheds.refl _ _⟩
  | ok fs => exact sheds_detachFilters fs (hsheds ns parent fs hlist) errs Set.Subset.rfl

/-- `Detach` gets to the qdisc whatever fails, and by then has deleted some of the plugin's own
filters. -/
theorem detach_spec (hsheds : h.DetachSheds link p) (ns : Netns) :
    ∃ ns₁, Sheds p ns.objects ns₁.objects ∧
      (exec (detach h link) ns).2 = (exec (qdiscDel h link.index) ns₁).2 := by
  obtain ⟨errs₁, ns₁, h₁, hsheds₁⟩ := sheds_detachHook hsheds ns .egress []
  obtain ⟨errs₂, ns₂, h₂, hsheds₂⟩ := sheds_detachHook hsheds ns₁ .ingress errs₁
  refine ⟨ns₂, hsheds₁.trans hsheds₂, ?_⟩
  rw [detach, exec_bind_ok h₁, exec_bind_ok h₂, exec_bind, exec_attempt]
  rcases exec (qdiscDel h link.index) ns₂ with ⟨r, ns₃⟩
  cases r with
  | ok a => exact exec_failJoined_state _ _
  | error e => exact exec_failJoined_state _ _

end Detach

theorem not_onQdisc (hq : link.index ∉ ns.qdiscs) : ∀ o ∈ ns.objects, ¬ OnQdisc link.index o := by
  intro o ho hon
  cases o <;> simp only [OnQdisc] at hon
  case qdisc i => exact hq (hon ▸ ho)
  case filter f => exact hq (hon ▸ ns.attached f ho)

theorem objects_qdiscDel (h : Host) (ns : Netns) (link : Link) :
    (exec (qdiscDel h link.index) ns).2.objects =
      without (fun o => h.fault .setup .qdiscDel = none ∧ OnQdisc link.index o) ns.objects :=
  objects_deletes rfl (fun _ => objects_delQdisc _) not_onQdisc

/-- `Detach` takes out what it lists and what is on the qdisc. -/
theorem sheds_detach {p : Object → Prop} (hsheds : h.DetachSheds link p)
    (hq : ∀ o, OnQdisc link.index o → p o) (ns : Netns) :
    Sheds p ns.objects (exec (detach h link) ns).2.objects := by
  obtain ⟨ns₁, hfilters, hdel⟩ := detach_spec hsheds ns
  rw [hdel, objects_qdiscDel]
  exact hfilters.trans (.without fun o _ hand => hq o hand.2)

theorem onQdisc_of_clatFilterOn {index : ℕ} {o : Object} (hon : ClatFilterOn index o) :
    OnQdisc index o := by
  cases o with
  | filter f => exact hon.1
  | _ => exact hon.elim

/-- What is not the plugin's stays after `Detach`, unless it goes with the qdisc. -/
theorem mem_detach (hh : h.Lawful) {o : Object} (hclat : ¬ ClatFilterOn link.index o) :
    o ∈ (exec (detach h link) ns).2.objects ↔
      o ∈ ns.objects ∧ ¬ (h.fault .setup .qdiscDel = none ∧ OnQdisc link.index o) := by
  obtain ⟨ns₁, hsheds, hdel⟩ := detach_spec (detachSheds_clatFilterOn hh link) ns
  rw [hdel, objects_qdiscDel, mem_without]
  exact and_congr_left fun _ => ⟨fun ho => hsheds.subset ho, fun ho => hsheds.keep o ho hclat⟩

/-- What is not on the qdisc is none of `Detach`'s business. -/
theorem mem_detach_of_not_onQdisc (hh : h.Lawful) {o : Object} (hon : ¬ OnQdisc link.index o) :
    o ∈ (exec (detach h link) ns).2.objects ↔ o ∈ ns.objects := by
  rw [mem_detach hh fun hclat => hon (onQdisc_of_clatFilterOn hclat),
    and_iff_left fun hand => hon hand.2]

/-- `Detach` makes no difference to what `RemoveIPv4` takes out. -/
theorem removes_detach (hh : h.Lawful) (o : Object) :
    h.Removes s link (exec (detach h link) ns).2.objects o ↔ h.Removes s link ns.objects o :=
  Host.removes_congr (fun _ => mem_detach_of_not_onQdisc hh id)
    (fun _ => mem_detach_of_not_onQdisc hh id) o

/-- **What `Detach` leaves**: nothing on the qdisc of the interface. -/
theorem objects_detach (hh : h.Lawful) (hq : h.fault .setup .qdiscDel = none) :
    (exec (detach h link) ns).2.objects = without (OnQdisc link.index) ns.objects := by
  ext o
  rw [mem_without]
  by_cases hon : OnQdisc link.index o
  · obtain ⟨ns₁, -, hdel⟩ := detach_spec (detachSheds_clatFilterOn hh link) ns
    rw [hdel, objects_qdiscDel]
    exact iff_of_false (fun ho => ho.2 ⟨hq, hon⟩) fun ho => ho.2 hon
  · rw [mem_detach_of_not_onQdisc hh hon, and_iff_left hon]

/-! ## How far the plugin reaches -/

/-- The object is where the plugin writes or deletes: on the pod interface, addresses of other
networks apart, or a route under one of the plugin's keys or with the address of the pod as its
source. -/
def Object.Claimed (s : IPv4Setup) (link : Link) : Object → Prop
  | .link _ => False
  | .addr a => a.linkIndex = link.index ∧ a.ipNet.SameNet s.podIPv4
  | .neigh n => n.linkIndex = link.index
  | .route r => r.linkIndex = link.index ∨ r.src = some s.podIPv4.addr ∨
      r.key = (s.gatewayRoute link).key ∨ r.key = (s.defaultRoute link).key
  | .qdisc index => index = link.index
  | .filter f => f.linkIndex = link.index

variable {o : Object}

theorem Object.claimed_of_onQdisc (hon : OnQdisc link.index o) : o.Claimed s link := by
  cases o with
  | qdisc i => exact hon
  | filter f => exact hon
  | _ => exact hon.elim

theorem Object.claimed_of_key_steps {x : Object} (hx : x ∈ (s.steps link).map Prod.snd)
    (hkey : o.key = x.key) : o.Claimed s link := by
  rcases cases_of_key_steps hx hkey with rfl | ⟨n, rfl, hn⟩ | ⟨r, rfl, hr⟩
  · exact ⟨rfl, .refl _⟩
  · exact congrArg Prod.fst hn
  · exact Or.inr (Or.inr hr)

/-- What goes with the address of the pod is in reach. -/
theorem Object.claimed_of_goesWith (hl : h.Linux) {S : Set Object}
    (hgoes : h.GoesWith S (s.addr link) o) : o.Claimed s link := by
  obtain ⟨-, rfl | ⟨others, -, htakes⟩⟩ := hgoes
  · exact ⟨rfl, .refl _⟩
  cases o with
  | addr a => exact hl.flush_addr htakes
  | neigh n => exact ((hl.flush_neigh _ _ _).mp htakes).1
  | route r => exact (hl.flush_route htakes).imp And.left Or.inl
  | _ => exact htakes.elim

/-- **What `RemoveIPv4` takes out is in reach.** -/
theorem Object.claimed_of_removes (hl : h.Linux) {S : Set Object} (hrem : h.Removes s link S o) :
    o.Claimed s link := by
  rcases hrem with ⟨-, r, rfl, hpicks⟩ | ⟨-, r, rfl, hpicks⟩ | ⟨-, hkey⟩ | ⟨-, hgoes⟩
  · exact Or.inl (hl.matches_agrees hpicks.1).1
  · exact Or.inl (hl.matches_agrees hpicks.1).1
  · exact claimed_of_key_steps (mem_steps.mpr (Or.inr (Or.inl rfl))) hkey
  · exact claimed_of_goesWith hl hgoes

end CiliumClat.Plugin
