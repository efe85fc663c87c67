import CiliumClat.Plugin.Attach

/-!
# The commands of the plugin

`internal/clat/plugin.go`: ADD, DEL and CHECK.  The state they work on is the network namespace of
the pod; what they print and log is left out, but for the result that ADD passes on.
-/

namespace CiliumClat.Plugin

open EarlyExit

variable (w : World) (h : Host)

/-- What the plugin reads of `skel.CmdArgs`. -/
structure CmdArgs where
  netns : String
  ifName : String
  args : String
  deriving DecidableEq, Repr

/-- `podLink`. -/
structure PodLink where
  mac : List UInt8
  mtu : ℤ
  peerIndex : ℤ
  deriving DecidableEq, Repr

/-- `inspectPodLink`. -/
def inspectPodLink (args : CmdArgs) : Cmd PodLink :=
  withNetNSPath h .podLink do
    let link ← query fun ns => (linkByName h .podLink ns args.ifName).mapError
      (GoError.wrap s!"find {args.ifName} in {args.netns}")
    if link.type ≠ "veth" then
      throw (errorf s!"{args.ifName} is a {link.type} link, only veth is supported")
    else
      return { mac := link.hardwareAddr, mtu := link.mtu, peerIndex := link.parentIndex }

/-- The peer of the pod interface in the host namespace, if it has a MAC. -/
def hostPeer (pl : PodLink) : Option (List UInt8) :=
  if pl.peerIndex > 0 ∧ h.fault .podLink .hostLinkByIndex = none then
    (w.hostLink pl.peerIndex).filter fun mac => decide (mac.length = 6)
  else none

/-- The MAC of the host interface in the previous result, if it can be parsed. -/
def resultMAC (res : Result) (ifName : String) : Option (List UInt8) :=
  if hostInterfaceMAC res ifName ≠ "" then w.parseMAC (hostInterfaceMAC res ifName) else none

/-- `peerMAC`. -/
def peerMAC (pl : PodLink) (res : Result) (ifName : String) : Except GoError (List UInt8) :=
  match (hostPeer w h pl).or (resultMAC w res ifName) with
  | some mac => .ok mac
  | none => .error (errorf (s!"cannot determine the host-side peer MAC of {ifName} " ++
      s!"(peer index {pl.peerIndex})"))

/-- `types.PrintResult`. -/
def printResult (res : Result) : Cmd Result :=
  query fun _ => reads h .setup .printResult (.ok res)

/-- `failOrOpen`. -/
def failOrOpen (cfg : Config) (res : Result) (err : GoError) : Cmd Result :=
  if cfg.failOpen then printResult h res else throw (errorf s!"cilium-clat: {err.text}")

/-- The constants that the programs of a pod are loaded with. -/
def Config.constants (cfg : Config) (pod6 : In6Addr) : Constants where
  clatPrefix := ⟨.v6 cfg.clatPrefix, 96⟩
  podIPv6 := .v6 pod6
  podIPv4 := .v4 cfg.podIPv4.addr
  errSrcIPv4 := some (.v4 cfg.errorSource)

/-- The setup of a pod, with the MAC of its peer. -/
def Config.setup (cfg : Config) (peer : List UInt8) : IPv4Setup where
  podIPv4 := cfg.podIPv4
  gateway := cfg.gateway
  peerMAC := peer

/-- The last part of `install`, in the namespace of the pod. -/
def installSetup (args : CmdArgs) (setup : IPv4Setup) (rodata : CiliumClat.Constants) : Cmd Unit :=
  withNetNSPath h .setup do
    let link ← query fun ns => (linkByName h .setup ns args.ifName).mapError
      (GoError.wrap s!"find {args.ifName}")
    match ← attempt (configureIPv4 h link setup) with
    | .error err => do
      ignoreError (removeIPv4 h link setup)
      throw err
    | .ok () =>
      match ← attempt (attach w h link rodata) with
      | .error err => do
        ignoreError (detach h link)
        ignoreError (removeIPv4 h link setup)
        throw err
      | .ok () => pure ()

/-- `install`. -/
def install (args : CmdArgs) (cfg : Config) (res : Result) (pod6 : In6Addr) : Cmd Unit := do
  let pl ← inspectPodLink h args
  let peer ← query fun _ => peerMAC w h pl res args.ifName
  let rodata ← query fun _ => load w h (cfg.constants pod6)
  installSetup w h args (cfg.setup peer) rodata

/-- `CmdAdd`, for a pod that is not skipped. -/
def addPod (args : CmdArgs) (cfg : Config) (res : Result) (pod6 : In6Addr) : Cmd Result := do
  match ← attempt (withNetNSPath h .inspect
      (query fun ns => inspectIPv4 h args.ifName (cfg.setup []) ns)) with
  | .error err => failOrOpen h cfg res (GoError.wrap "inspect pod netns" err)
  | .ok .foreign => printResult h res
  | .ok _ =>
    match ← attempt (install w h args cfg res pod6) with
    | .error err => failOrOpen h cfg res err
    | .ok () => printResult h res

/-- The error of ADD and CHECK without a previous result. -/
def noPrevResult : GoError :=
  errorf "cilium-clat must be chained after cilium-cni: no prevResult"

/-- `CmdAdd`. -/
def cmdAdd (args : CmdArgs) (conf : NetConf) : Cmd Result := do
  let cfg ← query fun _ => parseConfig w conf
  match conf.prevResult with
  | none => throw noPrevResult
  | some res =>
    match cfg.decide (some res) (podNamespace args.args) with
    | .error _ => printResult h res
    | .ok pod6 => addPod w h args cfg res pod6

/-- What `CmdDel` does in the namespace of the pod; a missing interface is no error. -/
def delPod (args : CmdArgs) (cfg : Config) : Cmd Unit := do
  match ← attempt (query fun ns => linkByName h .setup ns args.ifName) with
  | .error e => if e.is .linkNotFound then pure () else throw e
  | .ok link => do
    let detached ← attempt (detach h link)
    let removed ← attempt (removeIPv4 h link (cfg.setup []))
    match detached, removed with
    | .ok (), .ok () => pure ()
    | .error e, .ok () => throw e
    | .ok (), .error e => throw e
    | .error e, .error e' => failJoined [e, e']

/-- `CmdDel`: whatever goes wrong in the namespace, it reports success. -/
def cmdDel (args : CmdArgs) (conf : NetConf) : Cmd Unit := do
  let cfg ← query fun _ => parseConfig w conf
  if args.netns = "" then pure ()
  else ignoreError (withNetNSPath h .setup (delPod h args cfg))

/-- What `CmdCheck` reads first: the state of IPv4, and the filters of the pod interface. -/
def checkState (args : CmdArgs) (cfg : Config) :
    Cmd (IPv4State × Option Filter × Option Filter) :=
  withNetNSPath h .inspect do
    let state ← query fun ns => inspectIPv4 h args.ifName (cfg.setup []) ns
    let link ← query fun ns => linkByName h .inspect ns args.ifName
    let filters ← query fun ns => attachedFilters h .inspect ns link
    return (state, filters)

/-- `CmdCheck`, for a pod that has some of the setup. -/
def checkSetup (args : CmdArgs) (cfg : Config) (res : Result) (pod6 : In6Addr) : Cmd Unit := do
  let pl ← inspectPodLink h args
  let peer ← query fun _ => peerMAC w h pl res args.ifName
  let _ ← query fun _ => load w h (cfg.constants pod6)
  let egressTag ← query fun _ => programInfo w h .egress
  let ingressTag ← query fun _ => programInfo w h .ingress
  withNetNSPath h .setup do
    let link ← query fun ns => linkByName h .setup ns args.ifName
    query fun ns => checkIPv4 h link (cfg.setup peer) ns
    query fun ns => checkAttached h link egressTag ingressTag ns

/-- `CmdCheck`, for a pod that is not skipped. -/
def checkPod (args : CmdArgs) (cfg : Config) (res : Result) (pod6 : In6Addr) : Cmd Unit := do
  let (state, filters) ← checkState h args cfg
  if state = .foreign then pure ()
  else if state = .none ∧ filters = (none, none) then
    if cfg.failOpen then pure ()
    else throw (errorf (s!"no CLAT state in {args.netns}: " ++
      "IPv4 address, routes and filters are all missing"))
  else checkSetup w h args cfg res pod6

/-- `CmdCheck`. -/
def cmdCheck (args : CmdArgs) (conf : NetConf) : Cmd Unit := do
  let cfg ← query fun _ => parseConfig w conf
  match conf.prevResult with
  | none => throw noPrevResult
  | some res =>
    match cfg.decide (some res) (podNamespace args.args) with
    | .error _ => pure ()
    | .ok pod6 => checkPod w h args cfg res pod6

end CiliumClat.Plugin
