import CiliumClat.Library.KeyedTable
import CiliumClat.Library.EarlyExit
import CiliumClat.Datapath.Common
import Mathlib.Data.Finset.Basic

/-!
# The pod's network namespace

`Netns` is what the plugin reads and writes in the network namespace of a pod: links, IPv4
addresses, neighbour entries, routes of the main table, `clsact` qdiscs and filters.  The kernel
finds an entry by its key, so each kind is a table with that key; a filter hangs on a qdisc, and
that is a field as well.

The plugin changes a namespace through netlink calls, and each of them may fail.  `Host` says which
ones do during a command, and how the kernel answers where the plugin leaves it a choice.  A call
that fails changes nothing.

Two calls do more than their names say, or less.

* A request to delete a route need not give all that a route is known by.  A metric of 0 is not
  sent, so the request matches routes under any metric; the kernel deletes one of them.
* An address does not go alone.  Other addresses of its network may go with it, and with the last
  address of a link the kernel drops every route and every neighbour entry of the link.  What goes
  is a parameter (`Host.flush`), and what is assumed of it is said where it is used.
-/

namespace CiliumClat.Plugin

open KeyedTable EarlyExit

/-! ## Errors -/

/-- The errors that the plugin tells apart.  `linkNotFound` is `netlink.LinkNotFoundError`. -/
inductive Errno
  | eexist
  | enoent
  | esrch
  | eaddrnotavail
  | einval
  | linkNotFound
  | other
  deriving DecidableEq, Repr

/-- What the error prints. -/
def Errno.text : Errno → String
  | .eexist => "file exists"
  | .enoent => "no such file or directory"
  | .esrch => "no such process"
  | .eaddrnotavail => "cannot assign requested address"
  | .einval => "invalid argument"
  | .linkNotFound => "Link not found"
  | .other => "errno"

/-- A Go `error`: its text, and what `errors.Is` and `errors.As` find in its chain. -/
structure GoError where
  text : String
  chain : List Errno
  deriving DecidableEq, Repr

/-- An error number as an error. -/
def Errno.error (e : Errno) : GoError where
  text := e.text
  chain := [e]

/-- `fmt.Errorf` without `%w`. -/
def errorf (text : String) : GoError where
  text := text
  chain := []

/-- `fmt.Errorf` with `%w` at the end. -/
def GoError.wrap (context : String) (e : GoError) : GoError where
  text := context ++ ": " ++ e.text
  chain := e.chain

/-- `errors.Is`. -/
def GoError.is (e : GoError) (n : Errno) : Bool :=
  decide (n ∈ e.chain)

/-- `errors.Join`: nothing, if there is nothing to join. -/
def errorsJoin : List GoError → Option GoError
  | [] => none
  | errs => some {
      text := "\n".intercalate (errs.map GoError.text)
      chain := errs.flatMap GoError.chain }

/-! ## What a namespace holds -/

/-- What the plugin reads of a `netlink.Link`. -/
structure Link where
  index : ℕ
  name : String
  type : String
  loopback : Bool
  mtu : ℤ
  hardwareAddr : List UInt8
  /-- The index of the peer of a veth, in the namespace of the peer. -/
  parentIndex : ℤ
  deriving DecidableEq, Repr

/-- An IPv4 `net.IPNet` or `netip.Prefix`, the address in network byte order. -/
structure Prefix4 where
  addr : UInt32
  bits : ℕ
  deriving DecidableEq, Repr

/-- An IPv4 address on an interface, `netlink.Addr`. -/
structure IfAddr where
  linkIndex : ℕ
  ipNet : Prefix4
  deriving DecidableEq, Repr

/-- A neighbour entry, `netlink.Neigh`. -/
structure Neigh where
  linkIndex : ℕ
  ip : UInt32
  permanent : Bool
  hardwareAddr : List UInt8
  deriving DecidableEq, Repr

/-- A route of the main table, `netlink.Route`.  The destination of a default route may be missing,
depending on who lists it. -/
structure Route where
  linkIndex : ℕ
  dst : Option Prefix4
  gw : Option UInt32
  src : Option UInt32
  scope : ℕ
  protocol : ℕ
  metric : ℕ
  mtu : ℤ
  deriving DecidableEq, Repr

/-- A loaded program: its tag, and the constants in its `.rodata` if it is one of ours. -/
structure Program where
  tag : String
  rodata : Option CiliumClat.Constants
  deriving DecidableEq, Repr

/-- A `netlink.BpfFilter`, or a filter of another type. -/
inductive FilterKind
  | bpf (name : String) (directAction : Bool) (prog : Program)
  | other
  deriving DecidableEq, Repr

/-- A filter on one of the two hooks of a `clsact` qdisc. -/
structure Filter where
  linkIndex : ℕ
  parent : Hook
  priority : ℕ
  handle : ℕ
  kind : FilterKind
  deriving DecidableEq, Repr

/-- What the kernel knows a neighbour entry by. -/
def Neigh.key (n : Neigh) : ℕ × UInt32 :=
  (n.linkIndex, n.ip)

/-- What the kernel knows a route by: destination and metric. -/
def Route.key (r : Route) : Prefix4 × ℕ :=
  (r.dst.getD ⟨0, 0⟩, r.metric)

/-- What the kernel knows a filter by. -/
def Filter.key (f : Filter) : ℕ × Hook × ℕ × ℕ :=
  (f.linkIndex, f.parent, f.priority, f.handle)

/-- A network namespace.  Link names are unique, and a filter hangs on a qdisc. -/
@[ext] structure Netns where
  links : Table Link.index
  addrs : Table (id : IfAddr → IfAddr)
  neighs : Table Neigh.key
  routes : Table Route.key
  /-- The links that have a `clsact` qdisc. -/
  qdiscs : Table (id : ℕ → ℕ)
  filters : Table Filter.key
  names : ∀ l ∈ links, ∀ l' ∈ links, l.name = l'.name → l = l'
  attached : ∀ f ∈ filters, f.linkIndex ∈ qdiscs

/-! ## The calls -/

/-- Which part of a command makes a call: the look at the namespace, the look at the pod interface,
or the setup, removal or check itself. -/
inductive Site
  | inspect
  | podLink
  | setup
  deriving DecidableEq, Repr

/-- The two routes of the plugin. -/
inductive RouteKind
  | gateway
  | default
  deriving DecidableEq, Repr

/-- The calls of a command.  No command makes the same call twice at one site; the links of routes
are looked up route by route, so that call has the key of the route with it. -/
inductive Call
  | enterNetns
  | linkList
  | linkByName
  | linkByIndex (route : Prefix4 × ℕ)
  | hostLinkByIndex
  | addrList (index : ℕ)
  | neighList
  | routeList
  | filterList (parent : Hook)
  | addrReplace
  | neighSet
  | routeReplace (kind : RouteKind)
  | qdiscAdd
  | filterReplace (parent : Hook)
  | addrDel
  | neighDel
  | routeDel (kind : RouteKind)
  | filterDel (key : ℕ × Hook × ℕ × ℕ)
  | qdiscDel
  | removeMemlock
  | loadObject
  | setVariable (name : String)
  | loadPrograms
  | programInfo (parent : Hook)
  | printResult
  deriving DecidableEq, Repr

/-- What goes with an address that is deleted. -/
structure Flush where
  addrs : IfAddr → Bool
  neighs : Neigh → Bool
  routes : Route → Bool

/-- What the kernel does during one command, as far as the plugin cannot know it. -/
structure Host where
  /-- The error a call fails with for a reason of its own. -/
  fault : Site → Call → Option Errno
  /-- Whether a request to delete a route matches a route. -/
  routeMatches : Route → Route → Bool
  /-- What the kernel takes out together with an address, given the other addresses there are. -/
  flush : Finset IfAddr → IfAddr → Flush
  /-- The order in which the filters of a hook are listed. -/
  listing : List Filter → List Filter
  /-- The answer to listing filters where there is no qdisc: an error, or else no filters. -/
  noQdisc : Option Errno

/-- A function of the plugin, on the namespace of the pod. -/
abbrev Cmd (α : Type) : Type := Prog Netns GoError α

/-- `_ = f()`: run a function and go on, whatever it returns. -/
def ignoreError (f : Cmd Unit) : Cmd Unit := do
  let _ ← (attempt f : Cmd (Except GoError Unit))
  pure ()

variable (h : Host)

/-- A call that reads: it fails for a reason of its own, or gives the kernel's answer. -/
def reads {α : Type} (site : Site) (c : Call) (answer : Except Errno α) : Except GoError α :=
  match h.fault site c with
  | some e => .error e.error
  | none => answer.mapError Errno.error

/-- A call that writes: it fails and changes nothing, or the kernel does what it is asked to. -/
def writes (c : Call) (act : Netns → Except Errno Netns) : Cmd Unit :=
  ExceptT.mk fun ns =>
    match h.fault .setup c with
    | some e => (.error e.error, ns)
    | none =>
      match act ns with
      | .error e => (.error e.error, ns)
      | .ok ns' => (.ok (), ns')

/-- `ns.WithNetNSPath`. -/
def withNetNSPath {α : Type} (site : Site) (f : Cmd α) : Cmd α :=
  match h.fault site .enterNetns with
  | some e => throw e.error
  | none => f

section Reads

variable (site : Site) (ns : Netns)

/-- `netlink.LinkList`. -/
def linkList : Except GoError (List Link) :=
  reads h site .linkList (.ok ns.links.entries)

/-- `netlink.LinkByName`. -/
def linkByName (name : String) : Except GoError Link :=
  reads h site .linkByName <|
    match ns.links.entries.find? fun l => decide (l.name = name) with
    | some l => .ok l
    | none => .error .linkNotFound

/-- `netlink.LinkByIndex`, for the link of a route. -/
def linkByIndex (r : Route) : Except GoError Link :=
  reads h site (.linkByIndex r.key) <|
    match ns.links.entries.find? fun l => decide (l.index = r.linkIndex) with
    | some l => .ok l
    | none => .error .linkNotFound

/-- `netlink.AddrList` of the IPv4 addresses of a link. -/
def addrList (link : Link) : Except GoError (List IfAddr) :=
  reads h site (.addrList link.index) <|
    .ok (ns.addrs.entries.filter fun a => decide (a.linkIndex = link.index))

/-- `netlink.NeighList` of the IPv4 neighbours of a link. -/
def neighList (link : Link) : Except GoError (List Neigh) :=
  reads h site .neighList <|
    .ok (ns.neighs.entries.filter fun n => decide (n.linkIndex = link.index))

/-- `netlink.RouteListFiltered`, of all routes of the main table or of those of one link. -/
def routeList (link : Option Link) : Except GoError (List Route) :=
  reads h site .routeList <|
    .ok (ns.routes.entries.filter fun r => decide (∀ l ∈ link, r.linkIndex = l.index))

/-- `netlink.FilterList`. -/
def filterList (link : Link) (parent : Hook) : Except GoError (List Filter) :=
  reads h site (.filterList parent) <|
    if link.index ∈ ns.qdiscs then
      .ok (h.listing (ns.filters.entries.filter fun f =>
        decide (f.linkIndex = link.index ∧ f.parent = parent)))
    else
      match h.noQdisc with
      | some e => .error e
      | none => .ok []

end Reads

/-- `netlink.AddrReplace`. -/
def addrReplace (a : IfAddr) : Cmd Unit :=
  writes h .addrReplace fun ns => .ok { ns with addrs := ns.addrs.replace a }

/-- `netlink.NeighSet`. -/
def neighSet (n : Neigh) : Cmd Unit :=
  writes h .neighSet fun ns => .ok { ns with neighs := ns.neighs.replace n }

/-- `netlink.RouteReplace`. -/
def routeReplace (kind : RouteKind) (r : Route) : Cmd Unit :=
  writes h (.routeReplace kind) fun ns => .ok { ns with routes := ns.routes.replace r }

/-- An address deleted, with what goes with it. -/
def Netns.delAddr (ns : Netns) (a : IfAddr) (fl : Flush) : Netns :=
  { ns with
    addrs := ns.addrs.remove fun b => decide (b = a) || fl.addrs b
    neighs := ns.neighs.remove fl.neighs
    routes := ns.routes.remove fl.routes }

/-- `netlink.AddrDel`. -/
def addrDel (a : IfAddr) : Cmd Unit :=
  writes h .addrDel fun ns =>
    if a ∈ ns.addrs then .ok (ns.delAddr a (h.flush (ns.addrs.entries.toFinset.erase a) a))
    else .error .eaddrnotavail

/-- `netlink.NeighDel`. -/
def neighDel (n : Neigh) : Cmd Unit :=
  writes h .neighDel fun ns =>
    if ∃ m ∈ ns.neighs, m.key = n.key then
      .ok { ns with neighs := ns.neighs.remove fun m => decide (m.key = n.key) }
    else .error .enoent

/-- The kernel has the routes to a destination in the order of their metrics, and deletes the first
one that matches the request. -/
def Host.picks (ns : Netns) (req r : Route) : Bool :=
  h.routeMatches req r &&
    ns.routes.entries.all fun r' => !h.routeMatches req r' || decide (r.metric ≤ r'.metric)

/-- `netlink.RouteDel`. -/
def routeDel (kind : RouteKind) (r : Route) : Cmd Unit :=
  writes h (.routeDel kind) fun ns =>
    if ∃ r' ∈ ns.routes, h.routeMatches r r' = true then
      .ok { ns with routes := ns.routes.remove (h.picks ns r) }
    else .error .esrch

/-- A `clsact` qdisc added. -/
def Netns.addQdisc (ns : Netns) (index : ℕ) : Netns :=
  { ns with
    qdiscs := ns.qdiscs.replace index
    attached := by
      intro f hf
      rw [Table.mem_replace]
      by_cases hidx : f.linkIndex = index
      · exact Or.inl hidx
      · exact Or.inr ⟨ns.attached f hf, hidx⟩ }

/-- A `clsact` qdisc deleted, with every filter on it. -/
def Netns.delQdisc (ns : Netns) (index : ℕ) : Netns :=
  { ns with
    qdiscs := ns.qdiscs.remove fun i => decide (i = index)
    filters := ns.filters.remove fun f => decide (f.linkIndex = index)
    attached := by
      intro f hf
      obtain ⟨hmem, hidx⟩ := Table.mem_remove.mp hf
      exact Table.mem_remove.mpr ⟨ns.attached f hmem, hidx⟩ }

/-- A filter put on a qdisc that is there. -/
def Netns.setFilter (ns : Netns) (f : Filter) (hq : f.linkIndex ∈ ns.qdiscs) : Netns :=
  { ns with
    filters := ns.filters.replace f
    attached := by
      intro g hg
      rcases Table.mem_replace.mp hg with rfl | ⟨hmem, -⟩
      · exact hq
      · exact ns.attached g hmem }

/-- The filter with the given key deleted. -/
def Netns.delFilter (ns : Netns) (key : ℕ × Hook × ℕ × ℕ) : Netns :=
  { ns with
    filters := ns.filters.remove fun f => decide (f.key = key)
    attached := fun f hf => ns.attached f (Table.mem_remove.mp hf).1 }

/-- `netlink.QdiscAdd`. -/
def qdiscAdd (index : ℕ) : Cmd Unit :=
  writes h .qdiscAdd fun ns =>
    if index ∈ ns.qdiscs then .error .eexist else .ok (ns.addQdisc index)

/-- `netlink.QdiscDel`. -/
def qdiscDel (index : ℕ) : Cmd Unit :=
  writes h .qdiscDel fun ns =>
    if index ∈ ns.qdiscs then .ok (ns.delQdisc index) else .error .einval

/-- `netlink.FilterReplace`. -/
def filterReplace (f : Filter) : Cmd Unit :=
  writes h (.filterReplace f.parent) fun ns =>
    if hq : f.linkIndex ∈ ns.qdiscs then .ok (ns.setFilter f hq) else .error .einval

/-- `netlink.FilterDel`. -/
def filterDel (f : Filter) : Cmd Unit :=
  writes h (.filterDel f.key) fun ns =>
    if ∃ g ∈ ns.filters, g.key = f.key then .ok (ns.delFilter f.key) else .error .enoent

end CiliumClat.Plugin
