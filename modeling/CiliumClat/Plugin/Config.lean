import CiliumClat.Plugin.Netlink

/-!
# Configuration and decisions of the plugin

`internal/clat/config.go`.  A `Config` can only be one that `ParseConfig` accepts: its conditions on
the prefix and on the gateway are fields.  What the Go libraries parse is a parameter (`World`),
together with the other things that do not change between two commands for one pod.
-/

namespace CiliumClat.Plugin

/-! ## Addresses -/

/-- `netip.Addr`, valid and without a zone, in network byte order. -/
inductive Addr
  | v4 (a : UInt32)
  | v6 (a : In6Addr)
  deriving DecidableEq, Repr

/-- `netip.Prefix`. -/
structure NetPrefix where
  addr : Addr
  bits : ℕ
  deriving DecidableEq, Repr

/-- An IPv4 address mapped into IPv6, `::ffff:0:0/96`. -/
def is4In6 (a : In6Addr) : Bool :=
  a.w0 == 0 && a.w1 == 0 && a.w2 == bpfHtonl 0xffff

/-- `Addr.Unmap`. -/
def Addr.unmap : Addr → Addr
  | .v4 a => .v4 a
  | .v6 a => if is4In6 a then .v4 a.w3 else .v6 a

/-- `netip.AddrFromSlice`. -/
def addrFromSlice (bytes : List UInt8) : Option Addr :=
  if bytes.length = 4 then some (.v4 (ByteList.load32 bytes 0))
  else if bytes.length = 16 then some (.v6 (In6Addr.load bytes 0))
  else none

/-! ## The world around a pod -/

/-- What two commands for one pod find the same: how the Go libraries read and print addresses, the
links of the host namespace and the tags of the compiled programs. -/
structure World where
  parsePrefix : String → Except GoError NetPrefix
  parseAddr : String → Except GoError Addr
  parseMAC : String → Option (List UInt8)
  /-- The text of an IPv6 address. -/
  showIPv6 : In6Addr → String
  /-- The hardware address of the link with the given index in the host namespace. -/
  hostLink : ℤ → Option (List UInt8)
  /-- The tag of a program, a hash of its instructions. -/
  programTag : Hook → String

/-- An IPv4 address, dotted. -/
def addrText (a : UInt32) : String :=
  ".".intercalate ((ByteList.le32Bytes a).map fun b => toString b.toNat)

/-- `Addr.String`. -/
def Addr.text (w : World) : Addr → String
  | .v4 a => addrText a
  | .v6 a => w.showIPv6 a

/-! ## ParseConfig -/

/-- `IPConfig.Address.IP` of the previous result; the entry may be nil. -/
abbrev ResultIP : Type := Option (List UInt8)

/-- An interface of the previous result. -/
structure Interface where
  name : String
  mac : String
  sandbox : String
  deriving DecidableEq, Repr

/-- The previous plugin's result. -/
structure Result where
  ips : List ResultIP
  interfaces : List (Option Interface)
  deriving DecidableEq, Repr

/-- `NetConf`, as unmarshalled. -/
structure NetConf where
  clatPrefix : String
  podIPv4 : String
  gatewayIPv4 : String
  errorSourceIPv4 : String
  includeNamespaces : List String
  excludeNamespaces : List String
  failOpen : Bool
  prevResult : Option Result
  deriving DecidableEq, Repr

/-- `Config`: what `ParseConfig` accepts. -/
structure Config where
  /-- The CLAT prefix, always a /96. -/
  clatPrefix : In6Addr
  masked : clatPrefix.w3 = 0
  notMapped : is4In6 clatPrefix = false
  podIPv4 : Prefix4
  gateway : UInt32
  gateway_ne : gateway ≠ podIPv4.addr
  errorSource : UInt32
  includeNamespaces : List String
  excludeNamespaces : List String
  failOpen : Bool

/-- `DefaultPodIPv4`. -/
def defaultPodIPv4 : String := "192.0.0.2/29"

/-- `DefaultGatewayIPv4`. -/
def defaultGatewayIPv4 : String := "192.0.0.1"

/-- `DefaultErrorSourceIPv4`. -/
def defaultErrorSourceIPv4 : String := "192.0.0.8"

/-- A field of the configuration, or its default where it is empty. -/
def orDefault (value dflt : String) : String :=
  if value = "" then dflt else value

/-- An IPv4 address of the configuration: `gatewayIPv4` and `errorSourceIPv4`. -/
def parseAddr4 (w : World) (field value : String) : Except GoError UInt32 :=
  match w.parseAddr value with
  | .error e => .error (e.wrap field)
  | .ok (.v4 a) => .ok a
  | .ok (.v6 _) => .error (errorf s!"{field} {value.quote} must be an IPv4 address")

/-- `clatPrefix` of the configuration, an IPv6 /96 without host bits. -/
def parseClatPrefix (w : World) (value : String) :
    Except GoError { a : In6Addr // a.w3 = 0 ∧ is4In6 a = false } :=
  if value = "" then .error (errorf "clatPrefix is required")
  else
    match w.parsePrefix value with
    | .error e => .error (e.wrap "clatPrefix")
    | .ok ⟨.v6 a, bits⟩ =>
      if hmapped : is4In6 a = true ∨ bits ≠ 96 then
        .error (errorf s!"clatPrefix {value.quote} must be an IPv6 /96")
      else if hmasked : a.w3 ≠ 0 then
        .error (errorf s!"clatPrefix {value.quote} has non-zero bits after the /96")
      else
        .ok ⟨a, not_not.mp hmasked, Bool.eq_false_iff.mpr fun ht => hmapped (Or.inl ht)⟩
    | .ok ⟨.v4 _, _⟩ => .error (errorf s!"clatPrefix {value.quote} must be an IPv6 /96")

/-- `podIPv4` of the configuration. -/
def parsePodIPv4 (w : World) (value : String) : Except GoError Prefix4 :=
  match w.parsePrefix value with
  | .error e => .error (e.wrap "podIPv4")
  | .ok ⟨.v4 a, bits⟩ => .ok ⟨a, bits⟩
  | .ok ⟨.v6 _, _⟩ => .error (errorf s!"podIPv4 {value.quote} must be an IPv4 CIDR")

/-- `ParseConfig`, behind the JSON. -/
def parseConfig (w : World) (conf : NetConf) : Except GoError Config := do
  let clatPrefix ← parseClatPrefix w conf.clatPrefix
  let podIPv4 ← parsePodIPv4 w (orDefault conf.podIPv4 defaultPodIPv4)
  let gateway ← parseAddr4 w "gatewayIPv4" (orDefault conf.gatewayIPv4 defaultGatewayIPv4)
  if hgw : gateway = podIPv4.addr then
    .error (errorf "gatewayIPv4 must differ from podIPv4")
  else do
    let errorSource ← parseAddr4 w "errorSourceIPv4"
      (orDefault conf.errorSourceIPv4 defaultErrorSourceIPv4)
    .ok {
      clatPrefix := clatPrefix.1
      masked := clatPrefix.2.1
      notMapped := clatPrefix.2.2
      podIPv4 := podIPv4
      gateway := gateway
      gateway_ne := hgw
      errorSource := errorSource
      includeNamespaces := conf.includeNamespaces
      excludeNamespaces := conf.excludeNamespaces
      failOpen := conf.failOpen }

/-! ## Decisions -/

/-- The value of the first `K8S_POD_NAMESPACE` among the `K=V` of `CNI_ARGS`, or nothing. -/
def findNamespace : List (List Char) → List Char
  | [] => []
  | kv :: rest =>
    let key := kv.takeWhile fun ch => decide (ch ≠ '=')
    if kv.length ≠ key.length ∧ key = "K8S_POD_NAMESPACE".toList then kv.drop (key.length + 1)
    else findNamespace rest

/-- `PodNamespace`. -/
def podNamespace (cniArgs : String) : String :=
  String.ofList (findNamespace (cniArgs.toList.splitOn ';'))

/-- `SkipReason`, but `SkipNone`. -/
inductive SkipReason
  | noIPv6
  | hasIPv4
  | excludedNS
  | notIncluded
  | noPrevResult
  deriving DecidableEq, Repr

/-- The loop of `Decide` over the addresses of the result: the first IPv6 address, unless one is
IPv4. -/
def podIPv6 : List ResultIP → Option In6Addr → Except SkipReason (Option In6Addr)
  | [], pod6 => .ok pod6
  | ip :: ips, pod6 =>
    match (ip.bind addrFromSlice).map Addr.unmap with
    | none => podIPv6 ips pod6
    | some (.v4 _) => .error .hasIPv4
    | some (.v6 a) => podIPv6 ips (some (pod6.getD a))

/-- `Decide`. -/
def Config.decide (cfg : Config) (res : Option Result) (podNs : String) :
    Except SkipReason In6Addr :=
  match res with
  | none => .error .noPrevResult
  | some res =>
    if podNs ∈ cfg.excludeNamespaces then .error .excludedNS
    else if cfg.includeNamespaces ≠ [] ∧ podNs ∉ cfg.includeNamespaces then .error .notIncluded
    else
      match podIPv6 res.ips none with
      | .error reason => .error reason
      | .ok none => .error .noIPv6
      | .ok (some a) => .ok a

/-- `HostInterfaceMAC`: empty if there is none. -/
def hostInterfaceMAC (res : Result) (podIfName : String) : String :=
  match res.interfaces.find? fun i => i.any fun i =>
      decide (i.sandbox = "" ∧ i.name ≠ podIfName ∧ i.mac ≠ "") with
  | some (some i) => i.mac
  | _ => ""

end CiliumClat.Plugin
