import CiliumClat.Plugin.Config

/-!
# The IPv4 setup of a pod

`internal/clat/netns.go`: the address, neighbour entry and routes that the plugin installs,
`ConfigureIPv4` and `RemoveIPv4` to put them in and take them out, `CheckIPv4` to compare them and
`InspectIPv4` to classify what is there.  `ConfigureIPv4` stops at the first error; `RemoveIPv4`
goes on and joins its errors.
-/

namespace CiliumClat.Plugin

open EarlyExit

variable (h : Host)

/-! ## What is installed -/

/-- `ipv4HeaderOverhead`. -/
def ipv4HeaderOverhead : ℤ := 20

/-- `IPv4Setup`; the peer MAC is empty where it is not needed. -/
structure IPv4Setup where
  podIPv4 : Prefix4
  gateway : UInt32
  peerMAC : List UInt8
  deriving DecidableEq, Repr

/-- `hostRoute`. -/
def hostRoute (a : UInt32) : Prefix4 :=
  ⟨a, 32⟩

/-- `IPv4Setup.addr`. -/
def IPv4Setup.addr (s : IPv4Setup) (link : Link) : IfAddr where
  linkIndex := link.index
  ipNet := s.podIPv4

/-- `IPv4Setup.neigh`. -/
def IPv4Setup.neigh (s : IPv4Setup) (link : Link) : Neigh where
  linkIndex := link.index
  ip := s.gateway
  permanent := true
  hardwareAddr := s.peerMAC

/-- `netlink.SCOPE_UNIVERSE`. -/
def scopeUniverse : ℕ := 0

/-- `netlink.SCOPE_LINK`. -/
def scopeLink : ℕ := 253

/-- `unix.RTPROT_STATIC`. -/
def rtprotStatic : ℕ := 4

/-- `IPv4Setup.gatewayRoute`. -/
def IPv4Setup.gatewayRoute (s : IPv4Setup) (link : Link) : Route where
  linkIndex := link.index
  dst := some (hostRoute s.gateway)
  gw := none
  src := none
  scope := scopeLink
  protocol := rtprotStatic
  metric := 0
  mtu := 0

/-- `RouteMTU`. -/
def routeMTU (linkMTU : ℤ) : ℤ :=
  linkMTU - ipv4HeaderOverhead

/-- `IPv4Setup.defaultRoute`. -/
def IPv4Setup.defaultRoute (s : IPv4Setup) (link : Link) : Route where
  linkIndex := link.index
  dst := some ⟨0, 0⟩
  gw := some s.gateway
  src := none
  scope := scopeUniverse
  protocol := rtprotStatic
  metric := 0
  mtu := routeMTU link.mtu

/-! ## Texts -/

/-- The gateway of a route, if it has one. -/
def gwText : Option UInt32 → String
  | some a => addrText a
  | none => "<nil>"

/-- An IPv4 prefix. -/
def Prefix4.text (p : Prefix4) : String :=
  addrText p.addr ++ "/" ++ toString p.bits

/-- A hexadecimal digit pair. -/
def hexByte (b : UInt8) : String :=
  String.ofList [Nat.digitChar (b.toNat / 16), Nat.digitChar (b.toNat % 16)]

/-- A hardware address. -/
def macText (mac : List UInt8) : String :=
  ":".intercalate (mac.map hexByte)

/-! ## ConfigureIPv4 and RemoveIPv4 -/

/-- `ConfigureIPv4`. -/
def configureIPv4 (link : Link) (s : IPv4Setup) : Cmd Unit := do
  mapError (GoError.wrap s!"add {s.podIPv4.text} to {link.name}") (addrReplace h (s.addr link))
  mapError (GoError.wrap s!"add neighbour {addrText s.gateway} -> {macText s.peerMAC}")
    (neighSet h (s.neigh link))
  mapError (GoError.wrap s!"add route {addrText s.gateway}/32")
    (routeReplace h .gateway (s.gatewayRoute link))
  mapError (GoError.wrap s!"add IPv4 default route via {addrText s.gateway}")
    (routeReplace h .default (s.defaultRoute link))

/-- `ignoreNotFound`, on the outcome of a call. -/
def ignoreNotFound : Except GoError Unit → Option GoError
  | .ok () => none
  | .error e => if e.is .enoent ∨ e.is .esrch ∨ e.is .eaddrnotavail then none else some e

/-- One deletion of `RemoveIPv4`: the errors so far, and that of the call. -/
def removeStep (context : String) (call : Cmd Unit) (errs : List GoError) : Cmd (List GoError) := do
  let outcome ← attempt call
  return errs ++ ((ignoreNotFound outcome).map (GoError.wrap context)).toList

/-- Stop with the joined errors, if there are any. -/
def failJoined (errs : List GoError) : Cmd Unit :=
  match errorsJoin errs with
  | none => pure ()
  | some e => throw e

/-- `RemoveIPv4`. -/
def removeIPv4 (link : Link) (s : IPv4Setup) : Cmd Unit := do
  let errs ← removeStep "delete default route" (routeDel h .default (s.defaultRoute link)) []
  let errs ← removeStep "delete gateway route" (routeDel h .gateway (s.gatewayRoute link)) errs
  let errs ← removeStep "delete neighbour" (neighDel h (s.neigh link)) errs
  let errs ← removeStep "delete address" (addrDel h (s.addr link)) errs
  failJoined errs

/-! ## CheckIPv4 -/

/-- `r.Dst == nil || r.Dst.IP.Equal(net.IPv4zero)`: what the plugin takes for a default route, the
length of the destination apart. -/
def Route.IsDefault (r : Route) : Prop :=
  ∀ p ∈ r.dst, p.addr = 0

instance (r : Route) : Decidable r.IsDefault :=
  inferInstanceAs (Decidable (∀ p ∈ r.dst, p.addr = 0))

/-- The loop of `CheckIPv4` over the neighbours. -/
def checkNeighs (s : IPv4Setup) : List Neigh → Bool → Except GoError Bool
  | [], found => .ok found
  | n :: ns, found =>
    if n.ip = s.gateway then
      if n.permanent = false then
        .error (errorf s!"neighbour {addrText s.gateway} is not permanent")
      else if n.hardwareAddr ≠ s.peerMAC then
        .error (errorf (s!"neighbour {addrText s.gateway} has MAC {macText n.hardwareAddr}, " ++
          s!"want {macText s.peerMAC}"))
      else checkNeighs s ns true
    else checkNeighs s ns found

/-- The loop of `CheckIPv4` over the routes of the link: `haveGw` and `haveDefault`. -/
def checkRoutes (s : IPv4Setup) (want : ℤ) :
    List Route → Bool × Bool → Except GoError (Bool × Bool)
  | [], found => .ok found
  | r :: rs, (haveGw, haveDefault) =>
    if r.dst = some (hostRoute s.gateway) then checkRoutes s want rs (true, haveDefault)
    else if r.IsDefault then
      if r.gw ≠ some s.gateway then
        .error (errorf s!"IPv4 default route via {gwText r.gw}, want {addrText s.gateway}")
      else if r.mtu ≠ want then
        .error (errorf s!"IPv4 default route MTU {r.mtu}, want {want}")
      else checkRoutes s want rs (haveGw, true)
    else checkRoutes s want rs (haveGw, haveDefault)

/-- `CheckIPv4`. -/
def checkIPv4 (link : Link) (s : IPv4Setup) (ns : Netns) : Except GoError Unit := do
  let addrs ← addrList h .setup ns link
  if ¬ ∃ a ∈ addrs, a.ipNet = s.podIPv4 then
    .error (errorf s!"address {s.podIPv4.text} missing on {link.name}")
  else do
    let neighs ← neighList h .setup ns link
    let found ← checkNeighs s neighs false
    if found = false then
      .error (errorf s!"neighbour entry for {addrText s.gateway} missing")
    else do
      let routes ← routeList h .setup ns (some link)
      let (haveGw, haveDefault) ← checkRoutes s (routeMTU link.mtu) routes (false, false)
      if haveGw = false then .error (errorf s!"route to {addrText s.gateway} missing")
      else if haveDefault = false then .error (errorf "IPv4 default route missing")
      else .ok ()

/-! ## InspectIPv4 -/

/-- `IPv4State`. -/
inductive IPv4State
  | none
  | ours
  | foreign
  deriving DecidableEq, Repr

/-- The loop of `InspectIPv4` over the addresses of one link: `ours` and `foreign`. -/
def inspectAddrs (ifName : String) (s : IPv4Setup) (l : Link) :
    List IfAddr → Bool × Bool → Bool × Bool
  | [], seen => seen
  | a :: as, (ours, foreign) =>
    if l.name = ifName ∧ a.ipNet = s.podIPv4 then inspectAddrs ifName s l as (true, foreign)
    else inspectAddrs ifName s l as (ours, true)

/-- The loop of `InspectIPv4` over the links, without the loopback ones. -/
def inspectLinks (ns : Netns) (ifName : String) (s : IPv4Setup) :
    List Link → Bool × Bool → Except GoError (Bool × Bool)
  | [], seen => .ok seen
  | l :: ls, seen =>
    if l.loopback then inspectLinks ns ifName s ls seen
    else
      match addrList h .inspect ns l with
      | .error e => .error (e.wrap s!"list addresses on {l.name}")
      | .ok addrs => inspectLinks ns ifName s ls (inspectAddrs ifName s l addrs seen)

/-- A default route of the plugin: over the pod interface, via the gateway. -/
def isOurs (ns : Netns) (ifName : String) (s : IPv4Setup) (r : Route) : Bool :=
  match linkByIndex h .inspect ns r with
  | .ok l => decide (l.name = ifName ∧ r.gw = some s.gateway)
  | .error _ => false

/-- The loop of `InspectIPv4` over the routes. -/
def inspectRoutes (ns : Netns) (ifName : String) (s : IPv4Setup) :
    List Route → Bool × Bool → Bool × Bool
  | [], seen => seen
  | r :: rs, (ours, foreign) =>
    if ¬ r.IsDefault then inspectRoutes ns ifName s rs (ours, foreign)
    else if isOurs h ns ifName s r then inspectRoutes ns ifName s rs (true, foreign)
    else inspectRoutes ns ifName s rs (ours, true)

/-- `InspectIPv4`. -/
def inspectIPv4 (ifName : String) (s : IPv4Setup) (ns : Netns) : Except GoError IPv4State := do
  let links ← (linkList h .inspect ns).mapError (GoError.wrap "list links")
  let seen ← inspectLinks h ns ifName s links (false, false)
  let routes ← (routeList h .inspect ns none).mapError (GoError.wrap "list routes")
  let (ours, foreign) := inspectRoutes h ns ifName s routes seen
  .ok (if foreign then .foreign else if ours then .ours else .none)

end CiliumClat.Plugin
