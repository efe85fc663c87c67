import CiliumClat.Plugin.Netns

/-!
# The programs of a pod

`internal/clat/attach.go`: the constants of a pod become the `.rodata` of the two programs (`spec`,
`load`), and the programs become filters on a `clsact` qdisc of the pod interface (`attach`,
`detach`).  Where Go ranges over a map, egress comes first here; the order shows only in which of
two errors is returned.
-/

namespace CiliumClat.Plugin

open EarlyExit

variable (w : World) (h : Host)

/-- `EgressProgramName` and `IngressProgramName`. -/
def programName : Hook → String
  | .egress => "clat_egress"
  | .ingress => "clat_ingress"

/-- `filterPriority`. -/
def filterPriority : ℕ := 1

/-! ## Loading -/

/-- `Constants`; `none` is the zero `netip.Addr`. -/
structure Constants where
  clatPrefix : NetPrefix
  podIPv6 : Addr
  podIPv4 : Addr
  errSrcIPv4 : Option Addr
  deriving DecidableEq, Repr

/-- A call at loading time. -/
def loading (c : Call) (context : String) : Except GoError Unit :=
  (reads h .setup c (.ok ())).mapError (GoError.wrap context)

/-- The variables of the BPF object, in the order in which they are set. -/
def rodataVariables : List String :=
  ["CLAT_PREFIX", "POD_IP6", "POD_IP4", "ERR_IP4"]

/-- The loop of `Spec` over the variables. -/
def setVariables : List String → Except GoError Unit
  | [] => .ok ()
  | name :: names => do
    loading h (.setVariable name) s!"set {name}"
    setVariables names

/-- An address that has to be IPv4. -/
def Addr.want4 (a : Addr) (what : String) : Except GoError UInt32 :=
  match a with
  | .v4 a => .ok a
  | .v6 _ => .error (errorf s!"{what} {a.text w} is not IPv4")

/-- An address that has to be IPv6. -/
def Addr.want6 (a : Addr) (what : String) : Except GoError In6Addr :=
  match a with
  | .v6 a => if is4In6 a then .error (errorf s!"{what} {w.showIPv6 a} is not IPv6") else .ok a
  | .v4 _ => .error (errorf s!"{what} {a.text w} is not IPv6")

/-- A prefix that has to be an IPv6 /96; its host bits are cut off. -/
def NetPrefix.want96 (p : NetPrefix) : Except GoError In6Addr :=
  match p with
  | ⟨.v6 a, 96⟩ => .ok { a with w3 := 0 }
  | ⟨a, bits⟩ => .error (errorf s!"prefix {a.text w}/{bits} is not an IPv6 /96")

/-- `Constants.Spec`: the constants of the datapath. -/
def Constants.spec (c : Constants) : Except GoError CiliumClat.Constants := do
  loading h .loadObject "load embedded BPF object"
  let clatPrefix ← c.clatPrefix.want96 w
  let podIp6 ← c.podIPv6.want6 w "pod address"
  let podIp4 ← c.podIPv4.want4 w "pod IPv4 address"
  let errIp4 ← (c.errSrcIPv4.getD (.v4 (ByteList.load32 [192, 0, 0, 8] 0))).want4 w
    "ICMP error source"
  setVariables h rodataVariables
  .ok { clatPrefix, podIp6, podIp4, errIp4 }

/-- `Load`: the constants that both programs are loaded with. -/
def load (c : Constants) : Except GoError CiliumClat.Constants := do
  loading h .removeMemlock "remove memlock limit"
  let rodata ← c.spec w h
  loading h .loadPrograms "load BPF programs"
  .ok rodata

/-- A program loaded with the given constants. -/
def program (rodata : CiliumClat.Constants) (hook : Hook) : Program where
  tag := w.programTag hook
  rodata := some rodata

/-- `Programs.Tags`, for one of the programs. -/
def programInfo (hook : Hook) : Except GoError String :=
  reads h .setup (.programInfo hook) (.ok (w.programTag hook))

/-! ## Attaching -/

/-- `bpfFilter`. -/
def bpfFilter (link : Link) (rodata : CiliumClat.Constants) (hook : Hook) : Filter where
  linkIndex := link.index
  parent := hook
  priority := filterPriority
  handle := 1
  kind := .bpf (programName hook) true (program w rodata hook)

/-- The clsact qdisc of `Attach`: one that is there already will do. -/
def ensureQdisc (link : Link) : Cmd Unit := do
  match ← attempt (qdiscAdd h link.index) with
  | .ok () => pure ()
  | .error e =>
    if e.is .eexist then pure ()
    else throw (e.wrap s!"add clsact qdisc on {link.name}")

/-- `Attach`. -/
def attach (link : Link) (rodata : CiliumClat.Constants) : Cmd Unit := do
  ensureQdisc h link
  mapError (GoError.wrap s!"attach {programName .egress}")
    (filterReplace h (bpfFilter w link rodata .egress))
  mapError (GoError.wrap s!"attach {programName .ingress}")
    (filterReplace h (bpfFilter w link rodata .ingress))

/-- The name under which `Detach` deletes a filter: that of either program, on either hook. -/
def Filter.clatName (f : Filter) : Option String :=
  match f.kind with
  | .bpf name _ _ =>
    if name ≠ programName .egress ∧ name ≠ programName .ingress then none else some name
  | .other => none

/-- The loop of `Detach` over the filters of one hook. -/
def detachFilters : List Filter → List GoError → Cmd (List GoError)
  | [], errs => pure errs
  | f :: fs, errs =>
    match f.clatName with
    | none => detachFilters fs errs
    | some name => do
      match ← attempt (filterDel h f) with
      | .ok () => detachFilters fs errs
      | .error e =>
        detachFilters fs (if e.is .enoent then errs else errs ++ [e.wrap s!"delete filter {name}"])

/-- The loop of `Detach` over the hooks, at one hook. -/
def detachHook (link : Link) (parent : Hook) (errs : List GoError) : Cmd (List GoError) := do
  match ← attempt (query fun ns => filterList h .setup ns link parent) with
  | .ok filters => detachFilters h filters errs
  | .error e => pure (if e.is .einval ∨ e.is .enoent then errs else errs ++ [e])

/-- `Detach`. -/
def detach (link : Link) : Cmd Unit := do
  let errs ← detachHook h link .egress []
  let errs ← detachHook h link .ingress errs
  match ← attempt (qdiscDel h link.index) with
  | .ok () => failJoined errs
  | .error e =>
    failJoined (if e.is .enoent ∨ e.is .einval then errs
      else errs ++ [e.wrap "delete clsact qdisc"])

/-! ## Checking -/

/-- A filter that `AttachedFilters` takes for the program of its hook. -/
def Filter.isProgram (f : Filter) (hook : Hook) : Bool :=
  match f.kind with
  | .bpf name directAction _ => decide (name = programName hook ∧ directAction = true)
  | .other => false

/-- `AttachedFilters`, at one hook: the last filter listed wins. -/
def attachedFilter (site : Site) (ns : Netns) (link : Link) (hook : Hook) :
    Except GoError (Option Filter) := do
  let filters ← (filterList h site ns link hook).mapError (GoError.wrap "list filters")
  .ok (filters.filter fun f => f.isProgram hook).getLast?

/-- `AttachedFilters`. -/
def attachedFilters (site : Site) (ns : Netns) (link : Link) :
    Except GoError (Option Filter × Option Filter) := do
  let egress ← attachedFilter h site ns link .egress
  let ingress ← attachedFilter h site ns link .ingress
  .ok (egress, ingress)

/-- The tag of the program of a filter. -/
def Filter.tag (f : Filter) : String :=
  match f.kind with
  | .bpf _ _ prog => prog.tag
  | .other => ""

/-- The loop of `CheckAttached`, at one hook. -/
def checkFilter (link : Link) (hook : Hook) (want : String) : Option Filter → Except GoError Unit
  | none => .error (errorf s!"filter {programName hook} missing on {link.name}")
  | some f =>
    if f.tag ≠ want then
      .error (errorf s!"filter {programName hook} has program tag {f.tag}, want {want}")
    else .ok ()

/-- `CheckAttached`. -/
def checkAttached (link : Link) (egressTag ingressTag : String) (ns : Netns) :
    Except GoError Unit := do
  let (egress, ingress) ← attachedFilters h .setup ns link
  checkFilter link .egress egressTag egress
  checkFilter link .ingress ingressTag ingress

end CiliumClat.Plugin
