import CiliumClat.Plugin.Attach
import Mathlib.Data.List.Sort
import Mathlib.Data.String.Basic

/-!
# The counters of a pod

`internal/clat/counters.go`, and `cilium-clat counters` of `cmd/cilium-clat/main.go`: the command
that operators read the counters of a pod with.

The programs count in `clat_counters`, a per-CPU array, and the array is not pinned.  The command
goes to the namespace of the pod, takes the filter of `clat_egress`, from there the program, and
from the program the map with the right name; then it adds up the values of the CPUs under each key
and prints them in the order of their names.
-/

namespace CiliumClat

/-- `enum clat_counter`, in its order. -/
def Counter.all : List Counter :=
  [.egressTranslated, .ingressTranslated, .egressDropTruncated, .egressDropBadSrc,
    .egressDropMcast, .egressDropSrcroute, .egressDropFragNoCsum, .egressDropIcmpUnsupported,
    .egressDropTooBig, .egressDropHelper, .ingressDropTruncated, .ingressDropExthdr,
    .ingressDropUdpZeroCsum, .ingressDropFragIcmp, .ingressDropIcmpUnsupported,
    .ingressDropIcmpInner, .ingressDropHelper]

/-- `clat_counters`: for each counter one 64-bit value on each CPU. -/
structure CounterMap where
  cpus : ℕ
  value : Counter → ℕ → UInt64

/-- What a lookup of a key finds: the values of all CPUs, or nothing behind `CNT_MAX`. -/
def CounterMap.lookup (m : CounterMap) (key : ℕ) : Option (List UInt64) :=
  Counter.all[key]?.map fun c => (List.range m.cpus).map (m.value c)

namespace Plugin

open KeyedTable EarlyExit

/-- `CounterNames`. -/
def counterNames : List String :=
  ["egress_translated", "ingress_translated", "egress_drop_truncated", "egress_drop_bad_src",
    "egress_drop_mcast", "egress_drop_srcroute", "egress_drop_frag_no_csum",
    "egress_drop_icmp_unsupported", "egress_drop_too_big", "egress_drop_helper",
    "ingress_drop_truncated", "ingress_drop_exthdr", "ingress_drop_udp_zero_csum",
    "ingress_drop_frag_icmp", "ingress_drop_icmp_unsupported", "ingress_drop_icmp_inner",
    "ingress_drop_helper"]

/-- What the kernel says about programs and maps.  A system call may fail. -/
structure Bpf where
  /-- The id of the program of a filter. -/
  progId : Filter → ℕ
  /-- `ebpf.NewProgramFromID`. -/
  newProgram : ℕ → Except GoError Unit
  /-- `Program.Info`, and the ids of the maps if the kernel reports them. -/
  info : ℕ → Except GoError (Option (List ℕ))
  /-- `ebpf.NewMapFromID`. -/
  newMap : ℕ → Except GoError Unit
  /-- The name in `Map.Info`. -/
  mapName : ℕ → Except GoError String
  /-- What is in a map of counters. -/
  content : ℕ → CounterMap
  /-- The lookups that fail, by map and key. -/
  lookupFault : ℕ → ℕ → Option GoError

variable (b : Bpf)

/-- A Go `map[string]uint64`. -/
abbrev Sums : Type := Table (Prod.fst : String × UInt64 → String)

/-- `m.Lookup`. -/
def Bpf.lookup (id key : ℕ) : Except GoError (List UInt64) :=
  match b.lookupFault id key with
  | some e => .error e
  | none =>
    match (b.content id).lookup key with
    | some per => .ok per
    | none => .error (errorf "key does not exist")

/-- The loop of `ReadCounters`, at the key `i`. -/
def readCountersFrom (id : ℕ) : ℕ → List String → Sums → Except GoError Sums
  | _, [], out => .ok out
  | i, name :: names, out => do
    let per ← (b.lookup id i).mapError (GoError.wrap s!"lookup counter {i}")
    readCountersFrom id (i + 1) names (out.replace (name, per.foldl (· + ·) 0))

/-- `ReadCounters`. -/
def readCounters (id : ℕ) : Except GoError Sums :=
  readCountersFrom b id 0 counterNames Table.empty

/-- The loop of `CountersFromLink` over the maps of the program. -/
def findCounters : List ℕ → Except GoError ℕ
  | [] => .error (errorf "counters map not found among program maps")
  | id :: ids => do
    b.newMap id
    let name ← b.mapName id
    if name = "clat_counters" then .ok id else findCounters ids

/-- `CountersFromLink`. -/
def countersFromLink (h : Host) (ns : Netns) (link : Link) : Except GoError ℕ := do
  let (egress, _) ← attachedFilters h .inspect ns link
  match egress with
  | none => .error (errorf s!"{programName .egress} is not attached to {link.name}")
  | some f => do
    (b.newProgram (b.progId f)).mapError (GoError.wrap s!"open program id {b.progId f}")
    match ← b.info (b.progId f) with
    | none => .error (errorf "kernel does not report map IDs")
    | some ids => findCounters b ids

/-- What a command leaves behind: its exit code, and what it has written. -/
structure Exit where
  code : ℕ
  stdout : String
  stderr : String
  deriving DecidableEq, Repr

/-- `%-32s`. -/
def padded (name : String) : String :=
  name ++ String.ofList (List.replicate (32 - name.length) ' ')

/-- A line of the output. -/
def counterLine (name : String) (sum : UInt64) : String :=
  padded name ++ " " ++ toString sum.toNat ++ "\n"

/-- `out[name]`. -/
def Sums.get (out : Sums) (name : String) : UInt64 :=
  ((out.entries.find? fun kv => decide (kv.1 = name)).map Prod.snd).getD 0

/-- The part of `counters` in the namespace of the pod. -/
def podCounters (h : Host) (ifname : String) : Cmd Sums :=
  withNetNSPath h .inspect do
    let link ← query fun ns => linkByName h .inspect ns ifname
    let id ← query fun ns => countersFromLink b h ns link
    query fun _ => readCounters b id

/-- `counters`, behind its flags.  The keys of a Go map are visited in any order, here that of
`order`. -/
def counters (h : Host) (order : List String → List String) (netns ifname : String) (ns : Netns) :
    Exit :=
  if netns = "" then ⟨2, "", "--netns is required\n"⟩
  else
    match (exec (podCounters b h ifname) ns).1 with
    | .error err => ⟨1, "", "error: " ++ err.text ++ "\n"⟩
    | .ok out =>
      let names := (order (out.entries.map Prod.fst)).insertionSort (· ≤ ·)
      ⟨0, String.join (names.map fun name => counterLine name (out.get name)), ""⟩

end Plugin

end CiliumClat
