import CiliumClat.Refinement.Commands

/-!
# What the plugin reads in a namespace

`InspectIPv4`, `CheckIPv4` and `CheckAttached` are loops over listings.  Here they become statements
about the objects of the namespace, when no call fails:

* `InspectIPv4` counts some objects as the plugin's (`Object.Ours`), some as someone else's
  (`Object.Alien`), and does not look at the rest (`inspectIPv4_spec`);
* `CheckIPv4` passes exactly if the address, the neighbour entry and the routes are there, and every
  default route of the interface has the plugin's gateway and MTU (`checkIPv4_iff`);
* `CheckAttached` passes exactly if on each hook the last filter listed under the name of the
  program has its tag; so it passes for every order of the listing if all of them have it
  (`checkAttached_iff`).

Together they say when CHECK passes, whatever order the kernel lists filters in (`cmdCheck_iff`).
-/

namespace CiliumClat.Plugin

open KeyedTable EarlyExit

variable {w : World} {h : Host} {ns : Netns} {link : Link} {s : IPv4Setup} {ifName : String}

/-! ## InspectIPv4 -/

/-- The object that `InspectIPv4` takes for the plugin's: the pod's address, or a default route via
the gateway, on the pod interface. -/
def Object.Ours (ifName : String) (s : IPv4Setup) (ns : Netns) : Object → Prop
  | .addr a => a.ipNet = s.podIPv4 ∧
      ∃ l ∈ ns.links, l.loopback = false ∧ a.linkIndex = l.index ∧ l.name = ifName
  | .route r => r.IsDefault ∧ r.gw = some s.gateway ∧
      ∃ l ∈ ns.links, l.index = r.linkIndex ∧ l.name = ifName
  | _ => False

/-- An object that `InspectIPv4` takes for someone else's: any other address, but for the loopback
ones, and any other default route. -/
def Object.Alien (ifName : String) (s : IPv4Setup) (ns : Netns) : Object → Prop
  | .addr a => ∃ l ∈ ns.links, l.loopback = false ∧ a.linkIndex = l.index ∧
      ¬ (l.name = ifName ∧ a.ipNet = s.podIPv4)
  | .route r => r.IsDefault ∧
      ¬ (r.gw = some s.gateway ∧ ∃ l ∈ ns.links, l.index = r.linkIndex ∧ l.name = ifName)
  | _ => False

theorem inspectAddrs_eq (l : Link) (as : List IfAddr) (seen : Bool × Bool) :
    inspectAddrs ifName s l as seen =
      (seen.1 || as.any fun a => decide (l.name = ifName ∧ a.ipNet = s.podIPv4),
        seen.2 || as.any fun a => decide (¬ (l.name = ifName ∧ a.ipNet = s.podIPv4))) := by
  induction as generalizing seen with
  | nil => simp [inspectAddrs]
  | cons a as ih =>
    rw [inspectAddrs]
    by_cases hown : l.name = ifName ∧ a.ipNet = s.podIPv4
    · rw [if_pos hown, ih, List.any_cons, List.any_cons, decide_eq_true hown,
        decide_eq_false (not_not.mpr hown)]
      simp
    · rw [if_neg hown, ih, List.any_cons, List.any_cons, decide_eq_false hown, decide_eq_true hown]
      simp

/-- The addresses of a link. -/
def Netns.addrsOf (ns : Netns) (l : Link) : List IfAddr :=
  ns.addrs.entries.filter fun a => decide (a.linkIndex = l.index)

theorem reads_of_none {α : Type} {site : Site} {c : Call} (hf : h.fault site c = none)
    (answer : Except Errno α) : reads h site c answer = answer.mapError Errno.error := by
  rw [reads, hf]

theorem inspectLinks_eq (hf : ∀ c, h.fault .inspect c = none) (ls : List Link)
    (seen : Bool × Bool) :
    inspectLinks h ns ifName s ls seen = .ok
      (seen.1 || ls.any fun l => !l.loopback && (ns.addrsOf l).any fun a =>
          decide (l.name = ifName ∧ a.ipNet = s.podIPv4),
        seen.2 || ls.any fun l => !l.loopback && (ns.addrsOf l).any fun a =>
          decide (¬ (l.name = ifName ∧ a.ipNet = s.podIPv4))) := by
  induction ls generalizing seen with
  | nil => simp [inspectLinks]
  | cons l ls ih =>
    rw [inspectLinks]
    by_cases hlo : l.loopback = true
    · rw [if_pos hlo, ih, List.any_cons, List.any_cons, hlo]
      simp
    · have hlist : addrList h .inspect ns l = .ok (ns.addrsOf l) := reads_of_none (hf _) _
      rw [if_neg hlo, hlist]
      show inspectLinks h ns ifName s ls _ = _
      rw [ih, inspectAddrs_eq, List.any_cons, List.any_cons, Bool.eq_false_iff.mpr hlo]
      simp [Bool.or_assoc]

theorem isOurs_iff (hf : ∀ c, h.fault .inspect c = none) (r : Route) :
    isOurs h ns ifName s r = true ↔
      r.gw = some s.gateway ∧ ∃ l ∈ ns.links, l.index = r.linkIndex ∧ l.name = ifName := by
  rw [isOurs, linkByIndex, reads_of_none (hf _)]
  cases hfind : ns.links.entries.find? fun l => decide (l.index = r.linkIndex) with
  | none =>
    rw [List.find?_eq_none] at hfind
    refine iff_of_false Bool.false_ne_true ?_
    rintro ⟨-, l, hl, hindex, -⟩
    exact hfind l hl (decide_eq_true hindex)
  | some l =>
    have hmem : l ∈ ns.links := List.mem_of_find?_eq_some hfind
    have hindex : l.index = r.linkIndex := by
      have htest := List.find?_some hfind
      rwa [decide_eq_true_iff] at htest
    show decide (l.name = ifName ∧ r.gw = some s.gateway) = true ↔ _
    rw [decide_eq_true_iff]
    constructor
    · rintro ⟨hname, hgw⟩
      exact ⟨hgw, l, hmem, hindex, hname⟩
    · rintro ⟨hgw, l', hmem', hindex', hname⟩
      cases Table.eq_of_key hmem hmem' (hindex.trans hindex'.symm)
      exact ⟨hname, hgw⟩

theorem inspectRoutes_eq (rs : List Route) (seen : Bool × Bool) :
    inspectRoutes h ns ifName s rs seen =
      (seen.1 || rs.any fun r => decide r.IsDefault && isOurs h ns ifName s r,
        seen.2 || rs.any fun r => decide r.IsDefault && !isOurs h ns ifName s r) := by
  induction rs generalizing seen with
  | nil => simp [inspectRoutes]
  | cons r rs ih =>
    rw [inspectRoutes]
    by_cases hdef : r.IsDefault
    · rw [if_neg (not_not.mpr hdef), ih, ih, List.any_cons, List.any_cons, decide_eq_true hdef]
      cases isOurs h ns ifName s r <;> simp
    · rw [if_pos hdef, ih, List.any_cons, List.any_cons, decide_eq_false hdef]
      simp

/-- The loops of `InspectIPv4` see an object with a property of addresses or routes. -/
theorem exists_object_iff (ns : Netns) {P : Object → Prop} {p : Link → IfAddr → Bool}
    {q : Route → Bool}
    (hlink : ∀ l, ¬ P (.link l)) (hneigh : ∀ n, ¬ P (.neigh n)) (hqdisc : ∀ i, ¬ P (.qdisc i))
    (hfilter : ∀ f, ¬ P (.filter f))
    (haddr : ∀ a, P (.addr a) ↔ ∃ l ∈ ns.links, l.loopback = false ∧ a.linkIndex = l.index ∧
      p l a = true)
    (hroute : ∀ r, P (.route r) ↔ r.IsDefault ∧ q r = true) :
    ((ns.links.entries.any fun l => !l.loopback && (ns.addrsOf l).any (p l)) ||
        ns.routes.entries.any fun r => decide r.IsDefault && q r) = true ↔
      ∃ o ∈ ns.objects, P o := by
  simp only [Bool.or_eq_true, List.any_eq_true, Bool.and_eq_true, Bool.not_eq_true',
    Netns.addrsOf, List.mem_filter, decide_eq_true_iff]
  constructor
  · rintro (⟨l, hl, hlo, a, ⟨ha, hindex⟩, hpa⟩ | ⟨r, hr, hdef, hpr⟩)
    · exact ⟨.addr a, ha, (haddr a).mpr ⟨l, hl, hlo, hindex, hpa⟩⟩
    · exact ⟨.route r, hr, (hroute r).mpr ⟨hdef, hpr⟩⟩
  · rintro ⟨o, ho, hP⟩
    cases o with
    | addr a =>
      obtain ⟨l, hl, hlo, hindex, hpa⟩ := (haddr a).mp hP
      exact Or.inl ⟨l, hl, hlo, a, ⟨ho, hindex⟩, hpa⟩
    | route r => exact Or.inr ⟨r, ho, (hroute r).mp hP⟩
    | link l => exact absurd hP (hlink l)
    | neigh n => exact absurd hP (hneigh n)
    | qdisc i => exact absurd hP (hqdisc i)
    | filter f => exact absurd hP (hfilter f)

theorem inspectIPv4_eq (hf : ∀ c, h.fault .inspect c = none) :
    inspectIPv4 h ifName s ns = .ok
      (if ((ns.links.entries.any fun l => !l.loopback && (ns.addrsOf l).any fun a =>
            decide (¬ (l.name = ifName ∧ a.ipNet = s.podIPv4))) ||
          ns.routes.entries.any fun r => decide r.IsDefault && !isOurs h ns ifName s r) = true
        then .foreign
        else if ((ns.links.entries.any fun l => !l.loopback && (ns.addrsOf l).any fun a =>
            decide (l.name = ifName ∧ a.ipNet = s.podIPv4)) ||
          ns.routes.entries.any fun r => decide r.IsDefault && isOurs h ns ifName s r) = true
        then .ours else .none) := by
  have hlinks : linkList h .inspect ns = .ok ns.links.entries := reads_of_none (hf _) _
  have hroutes : routeList h .inspect ns none = .ok ns.routes.entries := by
    rw [routeList, reads_of_none (hf _)]
    show Except.ok (ns.routes.entries.filter fun r => decide (∀ l ∈ none, _)) = _
    rw [List.filter_eq_self.mpr fun r _ => decide_eq_true nofun]
  rw [inspectIPv4, hlinks, hroutes]
  show (inspectLinks h ns ifName s ns.links.entries (false, false) >>= _) = _
  rw [inspectLinks_eq hf]
  show Except.ok (if (inspectRoutes h ns ifName s ns.routes.entries _).2 = true then _ else
    if (inspectRoutes h ns ifName s ns.routes.entries _).1 = true then _ else _) = _
  rw [inspectRoutes_eq, Bool.false_or, Bool.false_or]

/-- **What `InspectIPv4` reports**, when no call fails. -/
theorem inspectIPv4_spec (hf : ∀ c, h.fault .inspect c = none) (ifName : String) (s : IPv4Setup)
    (ns : Netns) :
    ∃ st, inspectIPv4 h ifName s ns = .ok st ∧
      (st = .foreign ↔ ∃ o ∈ ns.objects, o.Alien ifName s ns) ∧
      (st = .none ↔ (¬ ∃ o ∈ ns.objects, o.Alien ifName s ns) ∧
        ¬ ∃ o ∈ ns.objects, o.Ours ifName s ns) := by
  have hours := exists_object_iff ns (P := Object.Ours ifName s ns)
    (p := fun l a => decide (l.name = ifName ∧ a.ipNet = s.podIPv4))
    (q := fun r => isOurs h ns ifName s r) (fun _ => id) (fun _ => id) (fun _ => id) (fun _ => id)
    (fun a => by simp only [Object.Ours, decide_eq_true_iff]; tauto)
    (fun r => by rw [isOurs_iff hf]; exact Iff.rfl)
  have halien := exists_object_iff ns (P := Object.Alien ifName s ns)
    (p := fun l a => decide (¬ (l.name = ifName ∧ a.ipNet = s.podIPv4)))
    (q := fun r => !isOurs h ns ifName s r) (fun _ => id) (fun _ => id) (fun _ => id)
    (fun _ => id) (fun a => by simp only [Object.Alien, decide_eq_true_iff])
    (fun r => by rw [Bool.not_eq_true', ← Bool.not_eq_true, isOurs_iff hf]; exact Iff.rfl)
  refine ⟨_, inspectIPv4_eq hf, ?_⟩
  rw [← hours, ← halien]
  split
  · rename_i hforeign
    exact ⟨iff_of_true rfl hforeign, iff_of_false nofun fun hand => hand.1 hforeign⟩
  · rename_i hforeign
    refine ⟨iff_of_false ?_ hforeign, ?_⟩
    · split <;> nofun
    · split
      · rename_i hseen
        exact iff_of_false nofun fun hand => hand.2 hseen
      · rename_i hseen
        exact iff_of_true rfl ⟨hforeign, hseen⟩

/-! ## CheckIPv4 -/

theorem checkNeighs_iff (l : List Neigh) (found : Bool) :
    checkNeighs s l found = .ok true ↔
      (found = true ∨ ∃ n ∈ l, n.ip = s.gateway) ∧
        ∀ n ∈ l, n.ip = s.gateway → n.permanent = true ∧ n.hardwareAddr = s.peerMAC := by
  induction l generalizing found with
  | nil => simp [checkNeighs]
  | cons n l ih =>
    rw [checkNeighs]
    by_cases hip : n.ip = s.gateway
    · rw [if_pos hip]
      by_cases hperm : n.permanent = false
      · rw [if_pos hperm]
        simp [hip, hperm]
      · rw [if_neg hperm]
        by_cases hmac : n.hardwareAddr ≠ s.peerMAC
        · rw [if_pos hmac]
          simp [hip, hmac]
        · rw [if_neg hmac, ih]
          rw [Bool.not_eq_false] at hperm
          simp [hip, hperm, not_not.mp hmac]
    · rw [if_neg hip, ih]
      simp [hip]

theorem checkRoutes_iff (want : ℤ) (l : List Route) (found : Bool × Bool) :
    checkRoutes s want l found = .ok (true, true) ↔
      (found.1 = true ∨ ∃ r ∈ l, r.dst = some (hostRoute s.gateway)) ∧
        (found.2 = true ∨ ∃ r ∈ l, r.dst ≠ some (hostRoute s.gateway) ∧ r.IsDefault) ∧
        ∀ r ∈ l, r.dst ≠ some (hostRoute s.gateway) → r.IsDefault →
          r.gw = some s.gateway ∧ r.mtu = want := by
  induction l generalizing found with
  | nil =>
    obtain ⟨haveGw, haveDefault⟩ := found
    simp [checkRoutes]
  | cons r l ih =>
    obtain ⟨haveGw, haveDefault⟩ := found
    rw [checkRoutes]
    by_cases hdst : r.dst = some (hostRoute s.gateway)
    · rw [if_pos hdst, ih]
      simp [hdst]
    · rw [if_neg hdst]
      by_cases hdef : r.IsDefault
      · rw [if_pos hdef]
        by_cases hgw : r.gw ≠ some s.gateway
        · rw [if_pos hgw]
          simp [hdst, hdef, hgw]
        · rw [if_neg hgw]
          by_cases hmtu : r.mtu ≠ want
          · rw [if_pos hmtu]
            simp [hdst, hdef, hmtu]
          · rw [if_neg hmtu, ih]
            simp [hdst, hdef, not_not.mp hgw, not_not.mp hmtu]
      · rw [if_neg hdef, ih]
        simp [hdst, hdef]

/-- The IPv4 setup of the pod interface, as `CheckIPv4` wants it. -/
structure Configured (s : IPv4Setup) (link : Link) (ns : Netns) : Prop where
  addr : s.addr link ∈ ns.addrs
  neigh : s.neigh link ∈ ns.neighs
  gateway : ∃ r ∈ ns.routes, r.linkIndex = link.index ∧ r.dst = some (hostRoute s.gateway)
  default : ∃ r ∈ ns.routes, r.linkIndex = link.index ∧ r.dst ≠ some (hostRoute s.gateway) ∧
    r.IsDefault
  defaults : ∀ r ∈ ns.routes, r.linkIndex = link.index → r.dst ≠ some (hostRoute s.gateway) →
    r.IsDefault → r.gw = some s.gateway ∧ r.mtu = routeMTU link.mtu

/-- The calls of `CheckIPv4`. -/
def checkIPv4Calls (link : Link) : List Call :=
  [.addrList link.index, .neighList, .routeList]

/-- The three parts of `CheckIPv4`. -/
theorem checkIPv4_parts (hf : ∀ c ∈ checkIPv4Calls link, h.fault .setup c = none) :
    checkIPv4 h link s ns = .ok () ↔
      (∃ a ∈ ns.addrsOf link, a.ipNet = s.podIPv4) ∧
        checkNeighs s (ns.neighs.entries.filter fun n => decide (n.linkIndex = link.index)) false =
          .ok true ∧
        checkRoutes s (routeMTU link.mtu)
          (ns.routes.entries.filter fun r => decide (∀ l ∈ some link, r.linkIndex = l.index))
          (false, false) = .ok (true, true) := by
  have haddrs : addrList h .setup ns link = .ok (ns.addrsOf link) :=
    reads_of_none (hf _ (by simp [checkIPv4Calls])) _
  have hneighs : neighList h .setup ns link =
      .ok (ns.neighs.entries.filter fun n => decide (n.linkIndex = link.index)) :=
    reads_of_none (hf _ (by simp [checkIPv4Calls])) _
  have hroutes : routeList h .setup ns (some link) =
      .ok (ns.routes.entries.filter fun r => decide (∀ l ∈ some link, r.linkIndex = l.index)) :=
    reads_of_none (hf _ (by simp [checkIPv4Calls])) _
  rw [checkIPv4, haddrs, hneighs, hroutes]
  show (if ¬ ∃ a ∈ ns.addrsOf link, a.ipNet = s.podIPv4 then _ else _) = _ ↔ _
  by_cases haddr : ∃ a ∈ ns.addrsOf link, a.ipNet = s.podIPv4
  · rw [if_neg (not_not.mpr haddr), and_iff_right haddr]
    show (checkNeighs s _ false >>= _) = _ ↔ _
    cases checkNeighs s (ns.neighs.entries.filter fun n => decide (n.linkIndex = link.index)) false
      with
    | error e => exact iff_of_false nofun nofun
    | ok found =>
      cases found with
      | false => exact iff_of_false nofun nofun
      | true =>
        rw [and_iff_right rfl]
        show (checkRoutes s _ _ (false, false) >>= _) = _ ↔ _
        rcases checkRoutes s (routeMTU link.mtu) (ns.routes.entries.filter fun r =>
          decide (∀ l ∈ some link, r.linkIndex = l.index)) (false, false) with e | ⟨_ | _, _ | _⟩
        · exact iff_of_false nofun nofun
        · exact iff_of_false nofun nofun
        · exact iff_of_false nofun nofun
        · exact iff_of_false nofun nofun
        · exact iff_of_true rfl rfl
  · rw [if_pos haddr]
    exact iff_of_false nofun fun hand => haddr hand.1

/-- **What `CheckIPv4` accepts**, when none of its calls fails. -/
theorem checkIPv4_iff (hf : ∀ c ∈ checkIPv4Calls link, h.fault .setup c = none) :
    checkIPv4 h link s ns = .ok () ↔ Configured s link ns := by
  rw [checkIPv4_parts hf, checkNeighs_iff, checkRoutes_iff]
  simp only [Netns.addrsOf, List.mem_filter, decide_eq_true_iff, Bool.false_eq_true, false_or,
    Option.mem_some_iff, forall_eq']
  constructor
  · rintro ⟨⟨a, ⟨ha, hindex⟩, hnet⟩, ⟨⟨n, ⟨hn, hnindex⟩, hip⟩, hneigh⟩, ⟨r, ⟨hr, hrindex⟩, hdst⟩,
      ⟨d, ⟨hd, hdindex⟩, hddst, hdef⟩, hall⟩
    refine ⟨?_, ?_, ⟨r, hr, hrindex, hdst⟩, ⟨d, hd, hdindex, hddst, hdef⟩,
      fun r hr hindex => hall r ⟨hr, hindex⟩⟩
    · have heq : s.addr link = a := by rw [IPv4Setup.addr, ← hindex, ← hnet]
      rwa [heq]
    · obtain ⟨hperm, hmac⟩ := hneigh n ⟨hn, hnindex⟩ hip
      have heq : s.neigh link = n := by rw [IPv4Setup.neigh, ← hnindex, ← hip, ← hperm, ← hmac]
      rwa [heq]
  · intro hconf
    obtain ⟨r, hr, hrindex, hdst⟩ := hconf.gateway
    obtain ⟨d, hd, hdindex, hddst, hdef⟩ := hconf.default
    refine ⟨⟨_, ⟨hconf.addr, rfl⟩, rfl⟩, ⟨⟨_, ⟨hconf.neigh, rfl⟩, rfl⟩, ?_⟩,
      ⟨r, ⟨hr, hrindex⟩, hdst⟩, ⟨d, ⟨hd, hdindex⟩, hddst, hdef⟩,
      fun r hr => hconf.defaults r hr.1 hr.2⟩
    rintro n ⟨hn, hindex⟩ hip
    -- the kernel has one entry for the gateway on this interface
    have hkey : n.key = (s.neigh link).key := by rw [Neigh.key, hindex, hip]; rfl
    rw [Table.eq_of_key hn hconf.neigh hkey]
    exact ⟨rfl, rfl⟩

/-- `CheckIPv4` accepts nothing that it could not read. -/
theorem checkIPv4_faults (hok : checkIPv4 h link s ns = .ok ()) :
    ∀ c ∈ checkIPv4Calls link, h.fault .setup c = none := by
  rw [checkIPv4] at hok
  obtain ⟨addrs, haddrs, hok⟩ := bind_eq_ok.mp hok
  split at hok
  · nomatch hok
  obtain ⟨neighs, hneighs, hok⟩ := bind_eq_ok.mp hok
  obtain ⟨found, -, hok⟩ := bind_eq_ok.mp hok
  split at hok
  · nomatch hok
  obtain ⟨routes, hroutes, -⟩ := bind_eq_ok.mp hok
  intro c hc
  simp only [checkIPv4Calls, List.mem_cons, List.not_mem_nil, or_false] at hc
  rcases hc with rfl | rfl | rfl
  · exact (reads_eq_ok_iff.mp haddrs).1
  · exact (reads_eq_ok_iff.mp hneighs).1
  · exact (reads_eq_ok_iff.mp hroutes).1

theorem configured_of_checkIPv4 (hok : checkIPv4 h link s ns = .ok ()) : Configured s link ns :=
  (checkIPv4_iff (checkIPv4_faults hok)).mp hok

/-! ## CheckAttached -/

/-- A kernel on which CHECK runs: no call fails, filters are listed in some order, and none are
listed where there is no qdisc. -/
structure Host.Checks (h : Host) : Prop where
  faults : ∀ site c, h.fault site c = none
  listing : ∀ l, (h.listing l).Perm l
  noQdisc : h.noQdisc = none

/-- A filter that CHECK takes for the program of the hook. -/
def ProgramOn (link : Link) (hook : Hook) (f : Filter) : Prop :=
  (f.linkIndex = link.index ∧ f.parent = hook) ∧ f.isProgram hook = true

/-- The filters of a hook, in the order of the table. -/
def Netns.filtersOf (ns : Netns) (link : Link) (hook : Hook) : List Filter :=
  ns.filters.entries.filter fun f => decide (f.linkIndex = link.index ∧ f.parent = hook)

/-- The program of a hook, as CHECK finds it. -/
def Host.lastProgram (h : Host) (ns : Netns) (link : Link) (hook : Hook) : Option Filter :=
  ((h.listing (ns.filtersOf link hook)).filter fun f => f.isProgram hook).getLast?

theorem Host.Checks.mem_programs (hc : h.Checks) {hook : Hook} {f : Filter} :
    f ∈ (h.listing (ns.filtersOf link hook)).filter (fun f => f.isProgram hook) ↔
      f ∈ ns.filters ∧ ProgramOn link hook f := by
  rw [List.mem_filter, (hc.listing _).mem_iff, Netns.filtersOf, List.mem_filter,
    decide_eq_true_iff, and_assoc]
  exact Iff.rfl

theorem Host.Checks.lastProgram_eq_none (hc : h.Checks) {hook : Hook} :
    h.lastProgram ns link hook = none ↔ ∀ f ∈ ns.filters, ¬ ProgramOn link hook f := by
  rw [Host.lastProgram, List.getLast?_eq_none_iff, List.eq_nil_iff_forall_not_mem]
  refine forall_congr' fun f => ?_
  rw [hc.mem_programs, not_and]

theorem Host.Checks.lastProgram_mem (hc : h.Checks) {hook : Hook} {f : Filter}
    (hf : h.lastProgram ns link hook = some f) : f ∈ ns.filters ∧ ProgramOn link hook f :=
  hc.mem_programs.mp (List.mem_of_getLast? hf)

theorem Host.Checks.attachedFilter_eq (hc : h.Checks) (site : Site) (hook : Hook) :
    attachedFilter h site ns link hook = .ok (h.lastProgram ns link hook) := by
  have hlist : filterList h site ns link hook = .ok (h.listing (ns.filtersOf link hook)) := by
    rw [filterList, reads_of_none (hc.faults _ _)]
    by_cases hq : link.index ∈ ns.qdiscs
    · rw [if_pos hq]
      rfl
    · -- without a qdisc there are no filters, and no filters are listed
      have hnone : ns.filtersOf link hook = [] := by
        refine List.filter_eq_nil_iff.mpr fun f hf htest => hq ?_
        rw [← (of_decide_eq_true htest).1]
        exact ns.attached f hf
      rw [if_neg hq, hc.noQdisc, hnone, (hc.listing []).eq_nil]
      rfl
  rw [attachedFilter, hlist]
  rfl

theorem Host.Checks.attachedFilters_eq (hc : h.Checks) (site : Site) :
    attachedFilters h site ns link =
      .ok (h.lastProgram ns link .egress, h.lastProgram ns link .ingress) := by
  rw [attachedFilters, hc.attachedFilter_eq, hc.attachedFilter_eq]
  rfl

theorem checkFilter_iff {hook : Hook} {want : String} {f : Option Filter} :
    checkFilter link hook want f = .ok () ↔ ∃ f' ∈ f, f'.tag = want := by
  cases f with
  | none => exact iff_of_false nofun nofun
  | some f =>
    rw [checkFilter]
    by_cases htag : f.tag = want
    · rw [if_neg (not_not.mpr htag)]
      exact iff_of_true rfl ⟨f, rfl, htag⟩
    · rw [if_pos htag]
      refine iff_of_false nofun ?_
      rintro ⟨f', hf', htag'⟩
      cases hf'
      exact htag htag'

theorem Host.Checks.checkAttached_iff (hc : h.Checks) {tags : Hook → String} :
    checkAttached h link (tags .egress) (tags .ingress) ns = .ok () ↔
      ∀ hook, ∃ f ∈ h.lastProgram ns link hook, f.tag = tags hook := by
  rw [checkAttached, hc.attachedFilters_eq]
  have hboth : (∀ hook, ∃ f ∈ h.lastProgram ns link hook, f.tag = tags hook) ↔
      checkFilter link .egress (tags .egress) (h.lastProgram ns link .egress) = .ok () ∧
        checkFilter link .ingress (tags .ingress) (h.lastProgram ns link .ingress) = .ok () := by
    rw [checkFilter_iff, checkFilter_iff, forall_hook]
  rw [hboth]
  show (checkFilter link .egress _ _ >>= fun _ => checkFilter link .ingress _ _) = _ ↔ _
  cases checkFilter link .egress (tags .egress) (h.lastProgram ns link .egress) with
  | error e => exact iff_of_false nofun nofun
  | ok a => exact (and_iff_right rfl).symm

/-- On each hook there is a program, and all that go by its name have its tag. -/
def Attached (w : World) (link : Link) (ns : Netns) : Prop :=
  ∀ hook, (∃ f ∈ ns.filters, ProgramOn link hook f) ∧
    ∀ f ∈ ns.filters, ProgramOn link hook f → f.tag = w.programTag hook

/-- The kernel that lists the given filter last. -/
def Host.listingLast (f : Filter) : Host where
  fault _ _ := none
  routeMatches _ _ := false
  flush _ _ := ⟨fun _ => false, fun _ => false, fun _ => false⟩
  listing fs := (fs.filter fun g => decide (g ≠ f)) ++ fs.filter fun g => !decide (g ≠ f)
  noQdisc := none

theorem Host.listingLast_checks (f : Filter) : (Host.listingLast f).Checks where
  faults _ _ := rfl
  listing l := List.filter_append_perm (fun g => decide (g ≠ f)) l
  noQdisc := rfl

/-- There is such a kernel. -/
theorem Host.exists_checks : ∃ h : Host, h.Checks :=
  ⟨_, Host.listingLast_checks ⟨0, .egress, 0, 0, .other⟩⟩

theorem Host.lastProgram_listingLast {hook : Hook} {f : Filter} (hf : f ∈ ns.filters)
    (hprog : ProgramOn link hook f) : (Host.listingLast f).lastProgram ns link hook = some f := by
  show List.getLast? (List.filter (fun f => f.isProgram hook)
    (((ns.filtersOf link hook).filter fun g => decide (g ≠ f)) ++
      (ns.filtersOf link hook).filter fun g => !decide (g ≠ f))) = some f
  rw [List.filter_append]
  have hmem : f ∈ ((ns.filtersOf link hook).filter fun g => !decide (g ≠ f)).filter
      fun f => f.isProgram hook := by
    rw [List.mem_filter, List.mem_filter, Netns.filtersOf, List.mem_filter]
    exact ⟨⟨⟨hf, decide_eq_true hprog.1⟩, by simp⟩, hprog.2⟩
  have hne := List.ne_nil_of_mem hmem
  rw [List.getLast?_append_of_ne_nil _ hne, List.getLast?_eq_some_getLast hne]
  have hlast := List.getLast_mem hne
  rw [List.mem_filter, List.mem_filter] at hlast
  have heq := hlast.1.2
  rw [Bool.not_eq_true', decide_eq_false_iff_not, not_not] at heq
  rw [heq]

/-- **What `CheckAttached` accepts**, in whatever order filters are listed. -/
theorem checkAttached_iff :
    (∀ h : Host, h.Checks →
      checkAttached h link (w.programTag .egress) (w.programTag .ingress) ns = .ok ()) ↔
      Attached w link ns := by
  constructor
  · intro hall hook
    have hlast {h : Host} (hc : h.Checks) := hc.checkAttached_iff.mp (hall h hc) hook
    constructor
    · -- any order will do
      obtain ⟨h, hc⟩ := Host.exists_checks
      obtain ⟨f, hf, -⟩ := hlast hc
      exact ⟨f, hc.lastProgram_mem hf⟩
    · intro f hf hprog
      obtain ⟨f', hf', htag⟩ := hlast (Host.listingLast_checks f)
      rw [Host.lastProgram_listingLast hf hprog] at hf'
      cases hf'
      exact htag
  · intro hatt h hc
    refine hc.checkAttached_iff.mpr fun hook => ?_
    obtain ⟨⟨f, hf, hprog⟩, htags⟩ := hatt hook
    cases hlast : h.lastProgram ns link hook with
    | none => exact absurd hprog (hc.lastProgram_eq_none.mp hlast f hf)
    | some f' =>
      obtain ⟨hf', hprog'⟩ := hc.lastProgram_mem hlast
      exact ⟨f', rfl, htags f' hf' hprog'⟩

/-! ## CHECK -/

section Check

variable {args : CmdArgs} {conf : NetConf} {cfg : Config} {res : Result} {pod6 : In6Addr}

/-- The MAC of the peer of an interface, if it can be determined. -/
def peerOf (w : World) (res : Result) (link : Link) (ifName : String) : Option (List UInt8) :=
  (if link.parentIndex > 0 then
    (w.hostLink link.parentIndex).filter fun mac => decide (mac.length = 6)
  else none).or (resultMAC w res ifName)

theorem peerMAC_iff {pl : PodLink} {mac : List UInt8} (hpl : pl.peerIndex = link.parentIndex)
    (hf : h.fault .podLink .hostLinkByIndex = none) :
    peerMAC w h pl res ifName = .ok mac ↔ peerOf w res link ifName = some mac := by
  have hpeer : (hostPeer w h pl).or (resultMAC w res ifName) = peerOf w res link ifName := by
    rw [hostPeer, peerOf, hpl]
    simp only [hf, and_true]
  rw [peerMAC, hpeer]
  cases peerOf w res link ifName with
  | none => exact iff_of_false nofun nofun
  | some mac' =>
    constructor
    · rintro ⟨⟩
      rfl
    · rintro ⟨⟩
      rfl

theorem unmap_eq_v6 {a : Addr} {b : In6Addr} (hab : a.unmap = .v6 b) : is4In6 b = false := by
  cases a with
  | v4 a => nomatch hab
  | v6 a =>
    rw [Addr.unmap] at hab
    by_cases hmapped : is4In6 a = true
    · rw [if_pos hmapped] at hab
      nomatch hab
    · rw [if_neg hmapped] at hab
      cases hab
      exact Bool.eq_false_iff.mpr hmapped

/-- What `Decide` returns is no mapped IPv4 address. -/
theorem podIPv6_not_mapped {ips : List ResultIP} {acc : Option In6Addr} {a : In6Addr}
    (hacc : ∀ a ∈ acc, is4In6 a = false) (hips : podIPv6 ips acc = .ok (some a)) :
    is4In6 a = false := by
  induction ips generalizing acc with
  | nil =>
    cases hips
    exact hacc a rfl
  | cons ip ips ih =>
    rw [podIPv6] at hips
    cases hip : (ip.bind addrFromSlice).map Addr.unmap with
    | none =>
      rw [hip] at hips
      exact ih hacc hips
    | some addr =>
      rw [hip] at hips
      cases addr with
      | v4 b => nomatch hips
      | v6 b =>
        obtain ⟨addr, -, hunmap⟩ := Option.map_eq_some_iff.mp hip
        refine ih ?_ hips
        rintro c ⟨⟩
        cases acc with
        | none => exact unmap_eq_v6 hunmap
        | some d => exact hacc d rfl

theorem Decided.not_mapped (hd : Decided w args conf cfg res pod6) : is4In6 pod6 = false := by
  have hdec := hd.pod6
  rw [Config.decide] at hdec
  by_cases hex : podNamespace args.args ∈ cfg.excludeNamespaces
  · rw [if_pos hex] at hdec
    nomatch hdec
  rw [if_neg hex] at hdec
  by_cases hinc : cfg.includeNamespaces ≠ [] ∧ podNamespace args.args ∉ cfg.includeNamespaces
  · rw [if_pos hinc] at hdec
    nomatch hdec
  rw [if_neg hinc] at hdec
  rcases hips : podIPv6 res.ips none with reason | _ | a
  · rw [hips] at hdec
    nomatch hdec
  · rw [hips] at hdec
    nomatch hdec
  · rw [hips] at hdec
    cases hdec
    have hnone : ∀ a ∈ (none : Option In6Addr), is4In6 a = false := nofun
    exact podIPv6_not_mapped hnone hips

theorem loading_of_none (hf : ∀ c, h.fault .setup c = none) (c : Call) (context : String) :
    loading h c context = .ok () := by
  rw [loading, reads_of_none (hf c)]
  rfl

theorem setVariables_of_none (hf : ∀ c, h.fault .setup c = none) (names : List String) :
    setVariables h names = .ok () := by
  induction names with
  | nil => rfl
  | cons name names ih =>
    rw [setVariables, loading_of_none hf]
    exact ih

/-- Loading fails only if one of its calls does: `Spec` has nothing to say against the constants of
a pod. -/
theorem load_of_none (hd : Decided w args conf cfg res pod6) (hf : ∀ c, h.fault .setup c = none) :
    load w h (cfg.constants pod6) =
      .ok ⟨cfg.clatPrefix, pod6, cfg.podIPv4.addr, cfg.errorSource⟩ := by
  have hprefix : { cfg.clatPrefix with w3 := 0 } = cfg.clatPrefix := by rw [← cfg.masked]
  have hspec : (cfg.constants pod6).spec w h =
      .ok ⟨{ cfg.clatPrefix with w3 := 0 }, pod6, cfg.podIPv4.addr, cfg.errorSource⟩ := by
    have hpod6 : (Addr.v6 pod6).want6 w "pod address" = .ok pod6 := by
      rw [Addr.want6, hd.not_mapped]
      rfl
    rw [Constants.spec, loading_of_none hf, setVariables_of_none hf, Config.constants, hpod6]
    rfl
  rw [load, loading_of_none hf, loading_of_none hf, hspec, hprefix]
  rfl

/-- The links that CHECK finds by name. -/
theorem Host.Checks.linkByName_eq (hc : h.Checks) (site : Site) (hl : link ∈ ns.links)
    (hn : link.name = ifName) : linkByName h site ns ifName = .ok link :=
  linkByName_eq_ok_iff.mpr ⟨hc.faults _ _, hl, hn⟩

theorem Host.Checks.checkState_eq (hc : h.Checks) (cfg : Config) (hl : link ∈ ns.links)
    (hn : link.name = args.ifName) :
    ∃ st, exec (checkState h args cfg) ns = (.ok (st, h.lastProgram ns link .egress,
        h.lastProgram ns link .ingress), ns) ∧
      (st = .foreign ↔ ∃ o ∈ ns.objects, o.Alien args.ifName (cfg.setup []) ns) ∧
      (st = .none ↔ (¬ ∃ o ∈ ns.objects, o.Alien args.ifName (cfg.setup []) ns) ∧
        ¬ ∃ o ∈ ns.objects, o.Ours args.ifName (cfg.setup []) ns) := by
  obtain ⟨st, hst, hforeign, hnone⟩ :=
    inspectIPv4_spec (hc.faults .inspect) args.ifName (cfg.setup []) ns
  refine ⟨st, ?_, hforeign, hnone⟩
  rw [checkState, withNetNSPath_of_none (hc.faults _ _), exec_query_bind_ok ns hst,
    exec_query_bind_ok ns (hc.linkByName_eq .inspect hl hn),
    exec_query_bind_ok ns (hc.attachedFilters_eq .inspect)]
  rfl

/-- The setup of the pod interface is all there. -/
structure SetUp (w : World) (args : CmdArgs) (cfg : Config) (res : Result) (link : Link)
    (ns : Netns) : Prop where
  veth : link.type = "veth"
  configured : ∃ peer, peerOf w res link args.ifName = some peer ∧
    Configured (cfg.setup peer) link ns
  attached : Attached w link ns

theorem Host.Checks.inspectPodLink_iff (hc : h.Checks) (hl : link ∈ ns.links)
    (hn : link.name = args.ifName) (pl : PodLink) :
    (exec (inspectPodLink h args) ns).1 = .ok pl ↔
      link.type = "veth" ∧ pl = ⟨link.hardwareAddr, link.mtu, link.parentIndex⟩ := by
  rw [Plugin.inspectPodLink_iff, and_iff_right (hc.faults _ _),
    hc.linkByName_eq .podLink hl hn]
  constructor
  · rintro ⟨l, ⟨⟩, hveth, hpl⟩
    exact ⟨hveth, hpl⟩
  · rintro ⟨hveth, hpl⟩
    exact ⟨link, rfl, hveth, hpl⟩

/-- The second half of CHECK, on one kernel. -/
theorem Host.Checks.checkSetup_iff (hc : h.Checks) (hd : Decided w args conf cfg res pod6)
    (hl : link ∈ ns.links) (hn : link.name = args.ifName) :
    (exec (checkSetup w h args cfg res pod6) ns).1 = .ok () ↔
      link.type = "veth" ∧
        (∃ peer, peerOf w res link args.ifName = some peer ∧
          Configured (cfg.setup peer) link ns) ∧
        checkAttached h link (w.programTag .egress) (w.programTag .ingress) ns = .ok () := by
  rcases hexec : exec (inspectPodLink h args) ns with ⟨r, ns'⟩
  obtain rfl : ns = ns' := by
    rw [← exec_inspectPodLink_state h args ns, hexec]
  have hpl (pl : PodLink) := hc.inspectPodLink_iff hl hn pl
  rw [hexec] at hpl
  obtain ⟨e, rfl⟩ | ⟨pl, rfl⟩ := error_or_ok r
  · rw [checkSetup, exec_bind_error hexec]
    exact iff_of_false nofun fun hand => nomatch (hpl _).mpr ⟨hand.1, rfl⟩
  obtain ⟨hveth, rfl⟩ := (hpl pl).mp rfl
  rw [and_iff_right hveth, checkSetup, exec_bind_ok hexec]
  have hpeer (mac : List UInt8) :
      peerMAC w h ⟨link.hardwareAddr, link.mtu, link.parentIndex⟩ res args.ifName = .ok mac ↔
        peerOf w res link args.ifName = some mac :=
    peerMAC_iff rfl (hc.faults .podLink .hostLinkByIndex)
  obtain ⟨e, hmac⟩ | ⟨peer, hmac⟩ := error_or_ok
    (peerMAC w h ⟨link.hardwareAddr, link.mtu, link.parentIndex⟩ res args.ifName)
  · rw [exec_query_bind_error ns hmac]
    refine iff_of_false nofun ?_
    rintro ⟨⟨peer, hpeer', -⟩, -⟩
    nomatch hmac.symm.trans ((hpeer peer).mpr hpeer')
  · have hinfo (hook : Hook) : programInfo w h hook = .ok (w.programTag hook) :=
      reads_of_none (hc.faults _ _) _
    rw [exec_query_bind_ok ns hmac, exec_query_bind_ok ns (load_of_none hd (hc.faults .setup)),
      exec_query_bind_ok ns (hinfo .egress), exec_query_bind_ok ns (hinfo .ingress),
      withNetNSPath_of_none (hc.faults _ _),
      exec_query_bind_ok ns (hc.linkByName_eq .setup hl hn)]
    have hconf : checkIPv4 h link (cfg.setup peer) ns = .ok () ↔
        ∃ peer, peerOf w res link args.ifName = some peer ∧
          Configured (cfg.setup peer) link ns := by
      rw [checkIPv4_iff fun c _ => hc.faults .setup c]
      constructor
      · intro hconf
        exact ⟨peer, (hpeer peer).mp hmac, hconf⟩
      · rintro ⟨peer', hpeer', hconf⟩
        cases hpeer'.symm.trans ((hpeer peer).mp hmac)
        exact hconf
    rw [← hconf]
    obtain ⟨e, hcheck⟩ | ⟨_, hcheck⟩ := error_or_ok (checkIPv4 h link (cfg.setup peer) ns)
    · rw [exec_query_bind_error ns hcheck, hcheck]
      exact iff_of_false nofun nofun
    · rw [exec_query_bind_ok ns hcheck, exec_query, hcheck, and_iff_right rfl]

/-- CHECK finds neither IPv4 state of the plugin nor a program. -/
structure Blank (args : CmdArgs) (cfg : Config) (link : Link) (ns : Netns) : Prop where
  ours : ¬ ∃ o ∈ ns.objects, o.Ours args.ifName (cfg.setup []) ns
  programs : ∀ hook, ∀ f ∈ ns.filters, ¬ ProgramOn link hook f

/-- CHECK passes, whatever order filters are listed in: there is someone else's IPv4 state, or
nothing at all and a pod may start so, or everything. -/
def Passes (w : World) (args : CmdArgs) (cfg : Config) (res : Result) (link : Link) (ns : Netns) :
    Prop :=
  (∃ o ∈ ns.objects, o.Alien args.ifName (cfg.setup []) ns) ∨
    Blank args cfg link ns ∧ cfg.failOpen = true ∨ SetUp w args cfg res link ns

theorem cmdCheck_of_decided (hd : Decided w args conf cfg res pod6) :
    exec (cmdCheck w h args conf) ns = exec (checkPod w h args cfg res pod6) ns := by
  rw [cmdCheck, exec_query_bind_ok ns hd.config, hd.prev]
  dsimp only
  rw [hd.pod6]

/-- CHECK on one kernel. -/
theorem Host.Checks.cmdCheck_cases (hc : h.Checks) (hd : Decided w args conf cfg res pod6)
    (hl : link ∈ ns.links) (hn : link.name = args.ifName) :
    ((∃ o ∈ ns.objects, o.Alien args.ifName (cfg.setup []) ns) →
        (exec (cmdCheck w h args conf) ns).1 = .ok ()) ∧
      ((¬ ∃ o ∈ ns.objects, o.Alien args.ifName (cfg.setup []) ns) →
        (Blank args cfg link ns →
          ((exec (cmdCheck w h args conf) ns).1 = .ok () ↔ cfg.failOpen = true)) ∧
        (¬ Blank args cfg link ns →
          ((exec (cmdCheck w h args conf) ns).1 = .ok () ↔
            (exec (checkSetup w h args cfg res pod6) ns).1 = .ok ()))) := by
  obtain ⟨st, hstate, hforeign, hnone⟩ := hc.checkState_eq cfg hl hn
  rw [cmdCheck_of_decided hd, checkPod, exec_bind_ok hstate]
  refine ⟨fun halien => ?_, fun halien => ?_⟩
  · rw [hforeign.mpr halien]
    rfl
  have hst : ¬ st = .foreign := fun heq => halien (hforeign.mp heq)
  have hblank : st = .none ∧ (h.lastProgram ns link .egress, h.lastProgram ns link .ingress) =
      (none, none) ↔ Blank args cfg link ns := by
    rw [hnone, and_iff_right halien, Prod.mk.injEq, hc.lastProgram_eq_none, hc.lastProgram_eq_none]
    constructor
    · rintro ⟨hours, hprograms⟩
      exact ⟨hours, forall_hook.mpr hprograms⟩
    · intro hblank
      exact ⟨hblank.ours, forall_hook.mp hblank.programs⟩
  refine ⟨fun hb => ?_, fun hb => ?_⟩
  · show (exec (if st = .foreign then pure () else if st = .none ∧ _ then _ else _) ns).1 = _ ↔ _
    rw [if_neg hst, if_pos (hblank.mpr hb)]
    by_cases hopen : cfg.failOpen = true
    · rw [if_pos hopen]
      exact iff_of_true rfl hopen
    · rw [if_neg hopen]
      exact iff_of_false nofun hopen
  · show (exec (if st = .foreign then pure () else if st = .none ∧ _ then _ else _) ns).1 = _ ↔ _
    rw [if_neg hst, if_neg fun hand => hb (hblank.mp hand)]

/-- **When CHECK passes.** -/
theorem cmdCheck_iff (hd : Decided w args conf cfg res pod6) (hl : link ∈ ns.links)
    (hn : link.name = args.ifName) :
    (∀ h : Host, h.Checks → (exec (cmdCheck w h args conf) ns).1 = .ok ()) ↔
      Passes w args cfg res link ns := by
  by_cases halien : ∃ o ∈ ns.objects, o.Alien args.ifName (cfg.setup []) ns
  · exact iff_of_true (fun h hc => (hc.cmdCheck_cases hd hl hn).1 halien) (Or.inl halien)
  rw [Passes, or_iff_right halien]
  by_cases hblank : Blank args cfg link ns
  · have hnot : ¬ SetUp w args cfg res link ns := by
      intro hsetup
      obtain ⟨⟨f, hf, hprog⟩, -⟩ := hsetup.attached .egress
      exact hblank.programs .egress f hf hprog
    rw [or_iff_left hnot, and_iff_right hblank]
    constructor
    · intro hall
      -- any kernel will do
      obtain ⟨h, hc⟩ := Host.exists_checks
      exact (((hc.cmdCheck_cases hd hl hn).2 halien).1 hblank).mp (hall _ hc)
    · intro hopen h hc
      exact (((hc.cmdCheck_cases hd hl hn).2 halien).1 hblank).mpr hopen
  · rw [or_iff_right fun hand => hblank hand.1]
    have hone (h : Host) (hc : h.Checks) :=
      (((hc.cmdCheck_cases hd hl hn).2 halien).2 hblank).trans (hc.checkSetup_iff hd hl hn)
    constructor
    · intro hall
      obtain ⟨h, hc⟩ := Host.exists_checks
      obtain ⟨hveth, hconf, -⟩ := (hone _ hc).mp (hall _ hc)
      exact ⟨hveth, hconf, checkAttached_iff.mp fun h hc => ((hone h hc).mp (hall h hc)).2.2⟩
    · intro hsetup h hc
      exact (hone h hc).mpr
        ⟨hsetup.veth, hsetup.configured, checkAttached_iff.mpr hsetup.attached h hc⟩

end Check

end CiliumClat.Plugin
