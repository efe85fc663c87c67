import CiliumClat.Library.EventMachine
import CiliumClat.Plugin.Report
import CiliumClat.Properties.Counters
import CiliumClat.Properties.Reconfiguration
import Mathlib.Algebra.BigOperators.Ring.Finset
import Mathlib.Data.ZMod.Basic

/-!
# What the counters command prints

A packet runs on one of the CPUs of the node and counts in the values of that CPU.  The command adds
up the values of all CPUs, each sum a 64-bit number, finds a name for each by its place in a list
that the Go code keeps in sync with the enumeration of the C code by hand, and sorts the lines.

`counters_report` follows a count along this way.  Under the name of each enumerator the command
prints the number of packets, over all CPUs and in whatever order they came, that were counted with
it, modulo 2^64; and the counts mean what they say.
-/

namespace CiliumClat

open EventMachine

/-! ## Counting on many CPUs -/

/-- What the programs find of the counters on a CPU. -/
def CounterMap.on (m : CounterMap) (cpu : ℕ) : Counter → ℕ :=
  fun key => (m.value key cpu).toNat

/-- The values of a CPU are written. -/
def CounterMap.write (m : CounterMap) (cpu : ℕ) (n : Counter → ℕ) : CounterMap :=
  { m with value := fun key cpu' => if cpu' = cpu then UInt64.ofNat (n key) else m.value key cpu' }

@[simp] theorem CounterMap.cpus_write (m : CounterMap) (cpu : ℕ) (n : Counter → ℕ) :
    (m.write cpu n).cpus = m.cpus := rfl

theorem CounterMap.value_write (m : CounterMap) (cpu : ℕ) (n : Counter → ℕ) (key : Counter)
    (cpu' : ℕ) : (m.write cpu n).value key cpu' =
      if cpu' = cpu then UInt64.ofNat (n key) else m.value key cpu' := rfl

/-- A map before the first packet. -/
def CounterMap.zero (cpus : ℕ) : CounterMap where
  cpus := cpus
  value _ _ := 0

/-- The programs on all CPUs of a node. -/
def node (c : Constants) : Machine CounterMap (ℕ × Arrival) Outcome where
  step m e :=
    (m.write e.1 (e.2.outcome c (m.on e.1)).after.counters, some (e.2.outcome c (m.on e.1)))

/-- The run is counted with the key. -/
def Outcome.Counts (key : Counter) (o : Outcome) : Prop :=
  o.after.counters key = o.before key + 1

instance (key : Counter) (o : Outcome) : Decidable (o.Counts key) :=
  inferInstanceAs (Decidable (_ = _))

/-- A run moves a counter by one if it counts with its key, and else not at all. -/
theorem Arrival.counters_outcome (c : Constants) (a : Arrival) (n : Counter → ℕ) (key : Counter) :
    (a.outcome c n).after.counters key = n key + if (a.outcome c n).Counts key then 1 else 0 := by
  by_cases hcounts : (a.outcome c n).Counts key
  · rw [if_pos hcounts]
    exact hcounts
  · have hne : ∀ key', (a.outcome c n).after.counters = bump n key' → key ≠ key' := by
      rintro key' hcnt rfl
      refine hcounts ?_
      rw [Outcome.Counts, hcnt, bump_apply, if_pos rfl]
      rfl
    rw [if_neg hcounts, Nat.add_zero]
    rcases a.outcome_cases c n with ⟨-, -, hcnt, -⟩ | ⟨-, hcnt, -⟩ | ⟨key', -, -, hcnt⟩
    · rw [hcnt]
    · rw [hcnt, bump_apply, if_neg (hne _ hcnt), Nat.add_zero]
    · rw [hcnt, bump_apply, if_neg (hne _ hcnt), Nat.add_zero]

/-- The values under a key, added up over the CPUs. -/
def CounterMap.total (m : CounterMap) (key : Counter) : ℕ :=
  ((List.range m.cpus).map fun cpu => (m.value key cpu).toNat).sum

theorem natCast_toNat_ofNat (n : ℕ) : ((UInt64.ofNat n).toNat : ZMod (2 ^ 64)) = n := by
  rw [UInt64.toNat_ofNat']
  exact ZMod.natCast_mod n (2 ^ 64)

/-- To write one CPU moves the total by what is added there. -/
theorem CounterMap.total_write (m : CounterMap) {cpu d : ℕ} (hcpu : cpu < m.cpus)
    {n : Counter → ℕ} {key : Counter} (hn : n key = m.on cpu key + d) :
    ((m.write cpu n).total key : ZMod (2 ^ 64)) = m.total key + d := by
  have hvalue (cpu' : ℕ) : (((m.write cpu n).value key cpu').toNat : ZMod (2 ^ 64)) =
      (m.value key cpu').toNat + if cpu' = cpu then (d : ZMod (2 ^ 64)) else 0 := by
    rw [value_write]
    by_cases heq : cpu' = cpu
    · rw [if_pos heq, if_pos heq, natCast_toNat_ofNat, hn, Nat.cast_add, heq]
      rfl
    · rw [if_neg heq, if_neg heq, add_zero]
  have hone : List.count cpu (List.range m.cpus) = 1 :=
    List.count_eq_one_of_mem List.nodup_range (List.mem_range.mpr hcpu)
  rw [total, total, cpus_write, Nat.cast_list_sum, Nat.cast_list_sum, List.map_map, List.map_map]
  simp only [Function.comp_def, hvalue, List.sum_map_add]
  rw [List.sum_map_ite_eq, hone]
  simp

theorem node_total (c : Constants) {cpus : ℕ} {es : List (ℕ × Arrival)}
    (hcpu : ∀ e ∈ es, e.1 < cpus) (key : Counter) :
    (((node c).after (CounterMap.zero cpus) es).total key : ZMod (2 ^ 64)) =
      ((node c).answers (CounterMap.zero cpus) es).countP fun o => decide (o.Counts key) := by
  have hzero : (CounterMap.zero cpus).total key = 0 := by simp [CounterMap.total, CounterMap.zero]
  have hcount := after_eq_add_countP (M := node c) (G := fun _ e => e.1 < cpus)
    (I := fun m => m.cpus = cpus) (f := fun m => (m.total key : ZMod (2 ^ 64)))
    (Q := fun o => decide (o.Counts key)) (fun _ _ hm _ => hm) ?_
    (s := CounterMap.zero cpus) (along_of_forall hcpu) rfl
  · rw [hcount, hzero, Nat.cast_zero, zero_add]
  · intro m e hm he
    rw [← hm] at he
    refine (m.total_write he (e.2.counters_outcome c (m.on e.1) key)).trans ?_
    by_cases hcounts : (e.2.outcome c (m.on e.1)).Counts key <;> simp [node, hcounts]

/-- The counter of the translations of a hook counts them. -/
theorem Outcome.counts_translated_iff (c : Constants) (a : Arrival) (n : Counter → ℕ) (h : Hook) :
    (a.outcome c n).Counts h.translated ↔ (a.outcome c n).Translates h := by
  have hmoved := a.translated_outcome c h n
  have hbefore : (a.outcome c n).before = n := rfl
  rw [Counts, hmoved, hbefore]
  by_cases htr : (a.outcome c n).Translates h <;> simp [htr]

/-- The drop counters of a hook, taken together, count its drops. -/
theorem Outcome.sum_counts (c : Constants) (a : Arrival) (n : Counter → ℕ) (h : Hook) :
    (∑ key with h.isDrop key, if (a.outcome c n).Counts key then 1 else 0) =
      if (a.outcome c n).Drops h then 1 else 0 := by
  have hmoved := a.drops_outcome c h n
  rw [Hook.drops, Finset.sum_congr rfl fun key _ => a.counters_outcome c n key,
    Finset.sum_add_distrib] at hmoved
  exact Nat.add_left_cancel hmoved

theorem exists_of_mem_answers {c : Constants} {m : CounterMap} {es : List (ℕ × Arrival)}
    {o : Outcome} (ho : o ∈ (node c).answers m es) : ∃ (a : Arrival) (n : Counter → ℕ),
      o = a.outcome c n := by
  induction es generalizing m with
  | nil => exact absurd ho List.not_mem_nil
  | cons e es ih =>
    rcases List.mem_append.mp ho with ho | ho
    · exact ⟨e.2, m.on e.1, (Option.some.inj (Option.mem_toList.mp ho)).symm⟩
    · exact ih ho

/-- **The counts mean what they say.** -/
theorem node_counts (c : Constants) (m : CounterMap) (es : List (ℕ × Arrival)) (h : Hook) :
    let os := (node c).answers m es
    os.countP (fun o => decide (o.Counts h.translated)) =
        os.countP (fun o => decide (o.Translates h)) ∧
      (∑ key with h.isDrop key, os.countP fun o => decide (o.Counts key)) =
        os.countP fun o => decide (o.Drops h) := by
  intro os
  have hos : ∀ o ∈ os, ∃ (a : Arrival) (n : Counter → ℕ), o = a.outcome c n :=
    fun o ho => exists_of_mem_answers ho
  constructor
  · refine List.countP_congr fun o ho => ?_
    obtain ⟨a, n, rfl⟩ := hos o ho
    rw [decide_eq_true_iff, decide_eq_true_iff]
    exact Outcome.counts_translated_iff c a n h
  · clear_value os
    induction os with
    | nil => simp
    | cons o os ih =>
      obtain ⟨⟨a, n, rfl⟩, hrest⟩ := List.forall_mem_cons.mp hos
      simp only [List.countP_cons, Finset.sum_add_distrib, decide_eq_true_eq]
      rw [Outcome.sum_counts, ih hrest]

/-! ## Names -/

/-- The name of the enumerator in `bpf/clat.c`, without `CNT_` and in lower case. -/
def Counter.name : Counter → String
  | .egressTranslated => "egress_translated"
  | .ingressTranslated => "ingress_translated"
  | .egressDropTruncated => "egress_drop_truncated"
  | .egressDropBadSrc => "egress_drop_bad_src"
  | .egressDropMcast => "egress_drop_mcast"
  | .egressDropSrcroute => "egress_drop_srcroute"
  | .egressDropFragNoCsum => "egress_drop_frag_no_csum"
  | .egressDropIcmpUnsupported => "egress_drop_icmp_unsupported"
  | .egressDropTooBig => "egress_drop_too_big"
  | .egressDropHelper => "egress_drop_helper"
  | .ingressDropTruncated => "ingress_drop_truncated"
  | .ingressDropExthdr => "ingress_drop_exthdr"
  | .ingressDropUdpZeroCsum => "ingress_drop_udp_zero_csum"
  | .ingressDropFragIcmp => "ingress_drop_frag_icmp"
  | .ingressDropIcmpUnsupported => "ingress_drop_icmp_unsupported"
  | .ingressDropIcmpInner => "ingress_drop_icmp_inner"
  | .ingressDropHelper => "ingress_drop_helper"

theorem Counter.mem_all (key : Counter) : key ∈ Counter.all := by
  cases key with
  | _ => decide

/-- No two counters have the same name. -/
theorem Counter.nodup_names : (Counter.all.map Counter.name).Nodup := by decide

/-- The counters in the order of their names. -/
def Counter.sorted : List Counter :=
  Counter.all.insertionSort fun key key' => key.name ≤ key'.name

theorem Counter.pairwise_sorted : (Counter.sorted.map Counter.name).Pairwise (· ≤ ·) := by
  have htotal : Std.Total fun key key' : Counter => key.name ≤ key'.name :=
    ⟨fun key key' => le_total key.name key'.name⟩
  have htrans : IsTrans Counter fun key key' => key.name ≤ key'.name :=
    ⟨fun _ _ _ => le_trans⟩
  exact List.pairwise_map.mpr (List.pairwise_insertionSort _ _)

namespace Plugin

open KeyedTable EarlyExit

/-- The Go list of names is in sync with the enumeration. -/
theorem counterNames_eq : counterNames = Counter.all.map Counter.name := rfl

/-! ## Reading -/

theorem foldl_add_eq (a : UInt64) (per : List UInt64) :
    per.foldl (· + ·) a = UInt64.ofNat (a.toNat + (per.map UInt64.toNat).sum) := by
  induction per generalizing a with
  | nil => simp
  | cons v per ih =>
    rw [List.foldl_cons, ih, List.map_cons, List.sum_cons, ← Nat.add_assoc, UInt64.toNat_add]
    exact UInt64.ofNat_eq_iff_mod_eq_toNat _ _ |>.mpr (by simp)

/-- What `ReadCounters` returns for the given sums. -/
def sumsOf (value : Counter → UInt64) : Sums :=
  (Counter.all.map fun key => (key.name, value key)).foldl (fun out kv => out.replace kv)
    Table.empty

section SumsOf

variable {value : Counter → UInt64}

theorem mem_sumsOf {kv : String × UInt64} :
    kv ∈ sumsOf value ↔ ∃ key : Counter, kv = (key.name, value key) := by
  have hnodup : ((Counter.all.map fun key => (key.name, value key)).map Prod.fst).Nodup := by
    rw [List.map_map]
    exact Counter.nodup_names
  have hempty : kv ∉ (Table.empty : Sums) := List.not_mem_nil
  rw [sumsOf, mem_foldl_replace, mem_putAll hnodup, List.mem_map]
  constructor
  · rintro (⟨key, -, rfl⟩ | ⟨hmem, -⟩)
    · exact ⟨key, rfl⟩
    · exact absurd hmem hempty
  · rintro ⟨key, rfl⟩
    exact Or.inl ⟨key, key.mem_all, rfl⟩

/-- A Go map has one value under each key. -/
theorem Sums.get_of_mem {out : Sums} {name : String} {sum : UInt64} (hmem : (name, sum) ∈ out) :
    out.get name = sum := by
  rw [Sums.get]
  cases hfind : out.entries.find? fun kv => decide (kv.1 = name) with
  | none =>
    have hnone := List.find?_eq_none.mp hfind (name, sum) hmem
    exact absurd (decide_eq_true rfl) hnone
  | some kv =>
    have htest := List.find?_some hfind
    have hname : kv.1 = name := of_decide_eq_true htest
    have hkv : kv ∈ out := List.mem_of_find?_eq_some hfind
    obtain rfl := Table.eq_of_key hkv hmem hname
    rfl

theorem get_sumsOf (key : Counter) : (sumsOf value).get key.name = value key :=
  Sums.get_of_mem (mem_sumsOf.mpr ⟨key, rfl⟩)

theorem perm_names_sumsOf :
    ((sumsOf value).entries.map Prod.fst).Perm (Counter.all.map Counter.name) := by
  refine (List.perm_ext_iff_of_nodup (sumsOf value).nodup Counter.nodup_names).mpr fun name => ?_
  rw [List.mem_map, List.mem_map]
  constructor
  · rintro ⟨kv, hkv, rfl⟩
    obtain ⟨key, rfl⟩ := mem_sumsOf.mp hkv
    exact ⟨key, key.mem_all, rfl⟩
  · rintro ⟨key, -, rfl⟩
    exact ⟨_, mem_sumsOf.mpr ⟨key, rfl⟩, rfl⟩

/-- The lines for the given sums, in the order of the names. -/
def report (value : Counter → UInt64) : String :=
  String.join (Counter.sorted.map fun key => counterLine key.name (value key))

/-- The order in which a Go map is visited does not show. -/
theorem join_lines {order : List String → List String} (horder : ∀ l, (order l).Perm l) :
    String.join (((order ((sumsOf value).entries.map Prod.fst)).insertionSort (· ≤ ·)).map
      fun name => counterLine name ((sumsOf value).get name)) = report value := by
  have hperm : ((order ((sumsOf value).entries.map Prod.fst)).insertionSort (· ≤ ·)).Perm
      (Counter.sorted.map Counter.name) :=
    (List.perm_insertionSort _ _).trans ((horder _).trans (perm_names_sumsOf.trans
      ((List.perm_insertionSort _ _).map Counter.name).symm))
  have hnames : (order ((sumsOf value).entries.map Prod.fst)).insertionSort (· ≤ ·) =
      Counter.sorted.map Counter.name :=
    hperm.eq_of_pairwise (fun _ _ _ _ => le_antisymm) (List.pairwise_insertionSort _ _)
      Counter.pairwise_sorted
  rw [hnames, List.map_map, report]
  refine congrArg String.join (List.map_congr_left fun key _ => ?_)
  rw [Function.comp_apply, get_sumsOf]

end SumsOf

variable {b : Bpf} {h : Host} {ns : Netns} {link : Link} {id : ℕ}

theorem readCountersFrom_eq (hf : ∀ key, b.lookupFault id key = none) (keys : List Counter) {i : ℕ}
    (hkeys : Counter.all.drop i = keys) (out : Sums) :
    readCountersFrom b id i (keys.map Counter.name) out =
      .ok ((keys.map fun key => (key.name, UInt64.ofNat ((b.content id).total key))).foldl
        (fun out kv => out.replace kv) out) := by
  induction keys generalizing i out with
  | nil => rfl
  | cons key keys ih =>
    have hkey : Counter.all[i]? = some key := by
      rw [← List.head?_drop, hkeys]
      rfl
    have hrest : Counter.all.drop (i + 1) = keys := by
      rw [← List.tail_drop, hkeys]
      rfl
    have hsum : ((List.range (b.content id).cpus).map ((b.content id).value key)).foldl (· + ·) 0 =
        UInt64.ofNat ((b.content id).total key) := by
      rw [foldl_add_eq, UInt64.toNat_zero, Nat.zero_add, List.map_map]
      rfl
    rw [List.map_cons, readCountersFrom, Bpf.lookup, hf, CounterMap.lookup, hkey]
    show readCountersFrom b id (i + 1) (keys.map Counter.name) (out.replace (key.name, _)) = _
    rw [hsum, ih hrest]
    rfl

theorem readCounters_eq (hf : ∀ key, b.lookupFault id key = none) :
    readCounters b id = .ok (sumsOf fun key => UInt64.ofNat ((b.content id).total key)) := by
  rw [readCounters, counterNames_eq, readCountersFrom_eq hf Counter.all rfl Table.empty]
  rfl

/-- `CountersFromLink` takes the first map with the name. -/
theorem findCounters_eq_ok {ids : List ℕ}
    (hopen : ∀ id ∈ ids, b.newMap id = .ok () ∧ ∃ name, b.mapName id = .ok name)
    (hsome : ∃ id ∈ ids, b.mapName id = .ok "clat_counters") :
    ∃ id ∈ ids, findCounters b ids = .ok id ∧ b.mapName id = .ok "clat_counters" := by
  induction ids with
  | nil =>
    obtain ⟨id, hid, -⟩ := hsome
    exact absurd hid List.not_mem_nil
  | cons id ids ih =>
    obtain ⟨⟨hnew, name, hname⟩, hrest⟩ := List.forall_mem_cons.mp hopen
    have hstep : findCounters b (id :: ids) =
        if name = "clat_counters" then .ok id else findCounters b ids := by
      rw [findCounters, hnew, hname]
      rfl
    rw [hstep]
    by_cases hclat : name = "clat_counters"
    · rw [if_pos hclat]
      exact ⟨id, List.mem_cons_self, rfl, hclat ▸ hname⟩
    · rw [if_neg hclat]
      obtain ⟨id', hid', hname'⟩ := hsome
      rcases List.mem_cons.mp hid' with rfl | hid'
      · exact absurd (Except.ok.inj (hname.symm.trans hname')) hclat
      · obtain ⟨found, hfound, hout⟩ := ih hrest ⟨id', hid', hname'⟩
        exact ⟨found, List.mem_cons_of_mem id hfound, hout⟩

/-- The command can get at the counters `m` of the pod: the program is attached, no call fails, and
`m` is in each map with the name. -/
structure Readable (b : Bpf) (h : Host) (ifname : String) (ns : Netns) (link : Link)
    (m : CounterMap) : Prop where
  checks : h.Checks
  mem : link ∈ ns.links
  name : link.name = ifname
  attached : ∃ f ∈ ns.filters, ProgramOn link .egress f
  maps : ∀ f ∈ ns.filters, ProgramOn link .egress f → b.newProgram (b.progId f) = .ok () ∧
    ∃ ids, b.info (b.progId f) = .ok (some ids) ∧
      (∀ id ∈ ids, b.newMap id = .ok () ∧ ∃ name, b.mapName id = .ok name) ∧
      (∃ id ∈ ids, b.mapName id = .ok "clat_counters") ∧
      ∀ id ∈ ids, b.mapName id = .ok "clat_counters" →
        b.content id = m ∧ ∀ key, b.lookupFault id key = none

theorem Readable.podCounters_eq {ifname : String} {m : CounterMap}
    (hr : Readable b h ifname ns link m) :
    exec (podCounters b h ifname) ns =
      (.ok (sumsOf fun key => UInt64.ofNat (m.total key)), ns) := by
  have hlast : ∃ f ∈ h.lastProgram ns link .egress, f ∈ ns.filters ∧ ProgramOn link .egress f := by
    cases hlast : h.lastProgram ns link .egress with
    | none =>
      obtain ⟨f, hf, hprog⟩ := hr.attached
      exact absurd hprog (hr.checks.lastProgram_eq_none.mp hlast f hf)
    | some f => exact ⟨f, rfl, hr.checks.lastProgram_mem hlast⟩
  obtain ⟨f, hlast, hf, hprog⟩ := hlast
  obtain ⟨hnew, ids, hinfo, hopen, hsome, hall⟩ := hr.maps f hf hprog
  obtain ⟨id, hid, hfind, hname⟩ := findCounters_eq_ok hopen hsome
  obtain ⟨rfl, hfault⟩ := hall id hid hname
  have hlink : countersFromLink b h ns link = .ok id := by
    rw [countersFromLink, hr.checks.attachedFilters_eq, Option.mem_def.mp hlast]
    show ((b.newProgram (b.progId f)).mapError _ >>= fun _ => b.info (b.progId f) >>= _) = _
    rw [hnew, hinfo]
    exact hfind
  rw [podCounters, withNetNSPath_of_none (hr.checks.faults _ _),
    exec_query_bind_ok ns (hr.checks.linkByName_eq .inspect hr.mem hr.name),
    exec_query_bind_ok ns hlink, exec_query, readCounters_eq hfault]

/-- **What the counters command prints.**  After any packets on any CPUs, in any order, each name is
followed by the number of packets that were counted with its enumerator, modulo 2^64; these are, for
the two counters of translations, the packets that were translated, and for the others, taken
together, those that were dropped at their hook. -/
theorem counters_report {order : List String → List String} {netns ifname : String}
    (c : CiliumClat.Constants) {cpus : ℕ} {es : List (ℕ × Arrival)} (hcpu : ∀ e ∈ es, e.1 < cpus)
    (hns : netns ≠ "") (horder : ∀ l, (order l).Perm l)
    (hr : Readable b h ifname ns link ((node c).after (.zero cpus) es)) :
    let os := (node c).answers (.zero cpus) es
    counters b h order netns ifname ns =
        ⟨0, report fun key => UInt64.ofNat (os.countP fun o => decide (o.Counts key)), ""⟩ ∧
      ∀ hook : Hook,
        os.countP (fun o => decide (o.Counts hook.translated)) =
            os.countP (fun o => decide (o.Translates hook)) ∧
          (∑ key with hook.isDrop key, os.countP fun o => decide (o.Counts key)) =
            os.countP fun o => decide (o.Drops hook) := by
  intro os
  refine ⟨?_, node_counts c _ es⟩
  have hvalue (key : Counter) : UInt64.ofNat (((node c).after (.zero cpus) es).total key) =
      UInt64.ofNat (os.countP fun o => decide (o.Counts key)) := by
    have htotal := (ZMod.natCast_eq_natCast_iff _ _ _).mp (node_total c hcpu key)
    rw [UInt64.ofNat_eq_iff_mod_eq_toNat, UInt64.toNat_ofNat']
    exact htotal
  rw [counters, if_neg hns, hr.podCounters_eq]
  show Exit.mk 0 (String.join _) "" = _
  rw [join_lines horder, funext hvalue]

/-- After ADD there is a program to read the counters of. -/
theorem Up.attached {w : World} {s : IPv4Setup} {rodata : CiliumClat.Constants} {ns₀ : Netns}
    (hup : Up w s link rodata ns₀ ns) (hook : Hook) : ∃ f ∈ ns.filters, ProgramOn link hook f := by
  refine ⟨bpfFilter w link rodata hook, ?_, ⟨rfl, rfl⟩, by cases hook <;> rfl⟩
  exact hup.setup (.filter _) (by simp [mem_installed])

/-- A kernel in which the program has two maps, with the given counters in the second. -/
def testBpf (m : CounterMap) : Bpf where
  progId _ := 1
  newProgram _ := .ok ()
  info _ := .ok (some [10, 11])
  newMap _ := .ok ()
  mapName id := .ok (if id = 10 then "clat_bpf.rodata" else "clat_counters")
  content _ := m
  lookupFault _ _ := none

/-- The packets of a trace, on two CPUs. -/
theorem counters_report_two_cpus :
    let es : List (ℕ × Arrival) := testTrace.zipIdx.map fun p => (p.2 % 2, p.1)
    let b := testBpf ((node testConstants).after (.zero 2) es)
    let ns := step testWorld testKernel testArgs testConf testBare .add
    (counters b testKernel List.reverse "/proc/1/ns/net" "eth0" ns).code = 0 ∧
      ((node testConstants).answers (.zero 2) es).countP
        (fun o => decide (o.Counts .egressTranslated)) = 1 := by
  intro es b ns
  have hcpu : ∀ e ∈ es, e.1 < 2 := by
    intro e he
    obtain ⟨p, -, rfl⟩ := List.mem_map.mp he
    exact Nat.mod_lt _ (by decide)
  have hup : Up testWorld _ testLink _ testBare ns :=
    (Worn.refl testConfig testLink testBare).add testKernel_works testBare_bare.toFresh testAdds
  have hr : Readable b testKernel "eth0" ns testLink ((node testConstants).after (.zero 2) es) :=
    { checks := testHost_checks
      mem := (hup.links _).mpr testBare_bare.mem
      name := rfl
      attached := hup.attached .egress
      maps := fun _ _ _ => ⟨rfl, [10, 11], rfl, fun _ _ => ⟨rfl, _, rfl⟩,
        ⟨11, by decide, rfl⟩, fun _ _ _ => ⟨rfl, fun _ => rfl⟩⟩ }
  have hnetns : "/proc/1/ns/net" ≠ "" := by decide
  obtain ⟨hexit, -⟩ := counters_report testConstants hcpu hnetns List.reverse_perm hr
  exact ⟨by rw [hexit], by decide +kernel⟩

end Plugin

end CiliumClat
