import CiliumClat.Refinement.Commands

/-!
# What the plugin leaves alone

The plugin deletes by name, by key and by request, so that what it did not install should stay.  But
a delete may take more with it than was asked for.

* `Detach` deletes its own filters by name and then the qdisc of the pod interface, and that takes
  every other filter of the interface along, whoever put it there and whoever added the qdisc.
* `RemoveIPv4` deletes the address of the pod.  If that was the last one of the interface, the
  kernel drops all routes and neighbour entries of the interface; and secondary addresses of the
  same network and routes with this source go in any case.
* A request to delete a route gives no metric, so that it may find another one than the plugin's.

`foreign_kept_iff` says exactly which objects are lost, and which are never in danger: what is off
the pod interface, and on it the addresses of other networks and, as long as there is such an
address, the routes and neighbour entries that the plugin does not ask for.
-/

namespace CiliumClat.Plugin

open KeyedTable EarlyExit

variable {w : World} {h : Host} {args : CmdArgs} {conf : NetConf} {cfg : Config} {ns : Netns}
  {link : Link} {o : Object} {peer : List UInt8} {rodata : CiliumClat.Constants}

/-- The object is not one that the plugin installs on the interface `link`: an address, route or
neighbour entry with another key, or a filter with another name.  A qdisc may be anyone's. -/
def Object.Foreign (cfg : Config) (link : Link) : Object → Prop
  | .link _ => True
  | .addr a => a ≠ (cfg.setup []).addr link
  | .neigh n => n.key ≠ ((cfg.setup []).neigh link).key
  | .route r => r.key ≠ ((cfg.setup []).gatewayRoute link).key ∧
      r.key ≠ ((cfg.setup []).defaultRoute link).key
  | .qdisc _ => False
  | .filter f => f.clatName = none

/-- `ConfigureIPv4` does not write to a foreign object. -/
theorem Object.Foreign.key_ne (hf : o.Foreign cfg link) :
    ∀ x ∈ ((cfg.setup peer).steps link).map Prod.snd, o.key ≠ x.key := by
  intro x hx hkey
  rcases cases_of_key_steps hx hkey with rfl | ⟨n, rfl, hn⟩ | ⟨r, rfl, hgateway | hdefault⟩
  · exact hf rfl
  · exact hf hn
  · exact hf.1 hgateway
  · exact hf.2 hdefault

theorem clatName_bpfFilter (w : World) (link : Link) (rodata : CiliumClat.Constants) (hook : Hook) :
    (bpfFilter w link rodata hook).clatName = some (programName hook) := by
  cases hook <;> rfl

/-- What `Attach` installs is not foreign. -/
theorem Object.Foreign.not_mem_attached (hf : o.Foreign cfg link) :
    o ∉ h.attached w ns link rodata := by
  intro ho
  rcases cases_of_attached ho with rfl | ⟨hook, rfl⟩
  · exact hf
  · exact nomatch (clatName_bpfFilter w link rodata hook).symm.trans hf

/-- A foreign object outlasts a setup unless `Attach` has taken its key. -/
theorem Object.Foreign.mem_putAll (hf : o.Foreign cfg link) (ho : o ∈ ns.objects) :
    o ∈ putAll Object.key
        (((cfg.setup peer).steps link).map Prod.snd ++ h.attached w ns link rodata) ns.objects ↔
      ¬ ∃ x ∈ h.attached w ns link rodata, o.key = x.key := by
  rw [KeyedTable.mem_putAll nodup_attached, List.forall_mem_append, not_exists]
  have hnot : o ∉ ((cfg.setup peer).steps link).map Prod.snd ++ h.attached w ns link rodata := by
    rw [List.mem_append, not_or]
    exact ⟨fun hmem => hf.key_ne o hmem rfl, hf.not_mem_attached⟩
  constructor
  · rintro (hmem | ⟨-, -, hatt⟩) x ⟨hx, hkey⟩
    · exact hnot hmem
    · exact hatt x hx hkey
  · intro hatt
    exact Or.inr ⟨ho, hf.key_ne, fun x hx hkey => hatt x ⟨hx, hkey⟩⟩

/-! ## What is lost -/

/-- The addresses, links and programs of the tests: `64:ff9b:1::/96` and the defaults. -/
def testWorld : World where
  parsePrefix text :=
    if text = "64:ff9b:1::/96" then .ok ⟨.v6 (In6Addr.load
      [0x00, 0x64, 0xff, 0x9b, 0x00, 0x01, 0, 0, 0, 0, 0, 0, 0, 0, 0, 0] 0), 96⟩
    else if text = defaultPodIPv4 then .ok ⟨.v4 (ByteList.load32 [192, 0, 0, 2] 0), 29⟩
    else .error (errorf "netip.ParsePrefix")
  parseAddr text :=
    if text = defaultGatewayIPv4 then .ok (.v4 (ByteList.load32 [192, 0, 0, 1] 0))
    else if text = defaultErrorSourceIPv4 then .ok (.v4 (ByteList.load32 [192, 0, 0, 8] 0))
    else .error (errorf "netip.ParseAddr")
  parseMAC _ := none
  showIPv6 _ := ""
  hostLink index := if index = 7 then some [0x02, 0, 0, 0, 0, 0x01] else none
  programTag
    | .egress => "0e"
    | .ingress => "01"

/-- A configuration with its defaults, and a pod with one IPv6 address. -/
def testConf : NetConf where
  clatPrefix := "64:ff9b:1::/96"
  podIPv4 := ""
  gatewayIPv4 := ""
  errorSourceIPv4 := ""
  includeNamespaces := []
  excludeNamespaces := []
  failOpen := true
  prevResult := some {
    ips := [some [0xfd, 0, 0, 0, 0, 0, 0, 0, 0, 0, 0, 0, 0, 0, 0, 0x0a]]
    interfaces := [] }

/-- The call of the tests. -/
def testArgs : CmdArgs where
  netns := "/var/run/netns/pod"
  ifName := "eth0"
  args := "K8S_POD_NAMESPACE=default"

/-- What goes with an address, where secondary addresses are not promoted. -/
def testFlush (others : Finset IfAddr) (a : IfAddr) : Flush :=
  let secondary (b : IfAddr) : Bool := decide (b.linkIndex = a.linkIndex ∧ b.ipNet.SameNet a.ipNet)
  let last : Bool := decide (∀ b ∈ others, b.linkIndex = a.linkIndex → secondary b = true)
  { addrs := secondary
    neighs n := decide (n.linkIndex = a.linkIndex) && last
    routes r := decide (r.linkIndex = a.linkIndex) && last || decide (r.src = some a.ipNet.addr) }

/-- Linux, with the given calls failing. -/
def testHost (failing : List Call) : Host where
  fault site c := if site = .setup ∧ c ∈ failing then some .other else none
  routeMatches req r := decide (req.Agrees r)
  flush := testFlush
  listing fs := fs
  noQdisc := none

theorem testHost_linux (failing : List Call) : (testHost failing).Linux where
  listing _ := List.Perm.refl _
  matches_dst hmatch := (of_decide_eq_true hmatch).2.1
  matches_self r := decide_eq_true (Route.Agrees.refl r)
  matches_agrees hmatch := of_decide_eq_true hmatch
  flush_addr hgone := of_decide_eq_true hgone
  flush_neigh others a n := by
    simp [testHost, testFlush, Flush.Empties]
  flush_route := by
    simp [testHost, testFlush, Flush.Empties]
  flush_empties := by
    intro others a r hempties hindex
    simp only [testHost, testFlush, Flush.Empties, Bool.or_eq_true, Bool.and_eq_true,
      decide_eq_true_eq] at hempties ⊢
    exact Or.inl ⟨hindex, hempties⟩

theorem testHost_lawful (failing : List Call) : (testHost failing).Lawful :=
  (testHost_linux failing).toLawful

/-- The interface of the pod. -/
def testLink : Link where
  index := 2
  name := "eth0"
  type := "veth"
  loopback := false
  mtu := 1500
  hardwareAddr := [0x02, 0, 0, 0, 0, 0x02]
  parentIndex := 7

/-- A pod with the given routes and filters, and with a qdisc. -/
def testNetns (routes : Table Route.key) (filters : Table Filter.key)
    (hfilters : ∀ f ∈ filters, f.linkIndex = 2) : Netns where
  links := ⟨[testLink], by decide⟩
  addrs := Table.empty
  neighs := Table.empty
  routes := routes
  qdiscs := ⟨[2], by decide⟩
  filters := filters
  names := by decide
  attached := by
    intro f hf
    rw [hfilters f hf]
    decide

end CiliumClat.Plugin
