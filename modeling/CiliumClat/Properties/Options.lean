import CiliumClat.Properties.Checksums
import Mathlib.Logic.Relation

/-!
# IPv4 options

`clat_egress` strips the options of an IPv4 header, after `ip4_has_source_route` has looked for a
source route among them.  The scanner has two duties: a source route must not be overlooked, and an
option list that is malformed counts as one.

The options are walked from the first byte of the area on.  The walk is described here by its single
step `nextOption`, from an option that is complete to the next one, and the scanner is compared with
the positions this step reaches: it goes through all of them in its forty rounds
(`exists_fuel_of_walks`), so the answer depends on where the walk ends.  It overlooks no source
route.  But an option whose length points behind the area ends its loop as the end of the area does,
and so it accepts that malformed list (`option_scanner_iff`).

Whatever it accepts is stripped without a trace: the packet is translated as if the options had not
been there (`options_invisible`).
-/

namespace CiliumClat

open ByteList EarlyExit Relation

variable {k : Kernel} {c : Constants} {s : State} {opts : List UInt8} {n i j : ℕ}

/-! ## The walk -/

/-- `131` and `137`, the options that carry a source route. -/
def IsSourceRoute (t : UInt8) : Prop :=
  t = 131 ∨ t = 137

/-- A type with a length byte behind it that is no source route. -/
def IsOrdinary (t : UInt8) : Prop :=
  t ≠ 0 ∧ t ≠ 1 ∧ ¬ IsSourceRoute t

instance (t : UInt8) : Decidable (IsSourceRoute t) :=
  inferInstanceAs (Decidable (_ ∨ _))

instance (t : UInt8) : Decidable (IsOrdinary t) :=
  inferInstanceAs (Decidable (_ ∧ _))

/-- The length byte of the option at `i`. -/
def optionLength (opts : List UInt8) (i : ℕ) : ℕ :=
  (load8 opts (i + 1)).toNat

/-- The option behind the one at `i`, if that one is complete within an area of `n` bytes: a no-op
has one byte, and any other has its length byte in the area, says at least two, and ends in the
area.  Behind the end of the list and behind a source route the walk does not go on. -/
def nextOption (opts : List UInt8) (n i : ℕ) : Option ℕ :=
  if i < n ∧ load8 opts i = 1 then some (i + 1)
  else if i + 1 < n ∧ IsOrdinary (load8 opts i) ∧ 2 ≤ optionLength opts i ∧
      i + optionLength opts i ≤ n then some (i + optionLength opts i)
  else none

/-- The walk gets from the option at `i` to the one at `j`. -/
def Walks (opts : List UInt8) (n : ℕ) : ℕ → ℕ → Prop :=
  ReflTransGen fun i j => nextOption opts n i = some j

/-- The list ends at `i`, at the end of the area or before. -/
def EndsAt (opts : List UInt8) (n i : ℕ) : Prop :=
  i = n ∨ i < n ∧ load8 opts i = 0

/-- A source route stands at `i`. -/
def SourceRouteAt (opts : List UInt8) (n i : ℕ) : Prop :=
  i < n ∧ IsSourceRoute (load8 opts i)

/-- The option at `i` is in order up to its length, which points behind the area. -/
def OverrunAt (opts : List UInt8) (n i : ℕ) : Prop :=
  i + 1 < n ∧ IsOrdinary (load8 opts i) ∧ 2 ≤ optionLength opts i ∧ n < i + optionLength opts i

/-- The options are well formed and hold no source route. -/
def WellFormed (opts : List UInt8) (n : ℕ) : Prop :=
  ∃ i, Walks opts n 0 i ∧ EndsAt opts n i

/-- The walk comes to a source route. -/
def SourceRouted (opts : List UInt8) (n : ℕ) : Prop :=
  ∃ i, Walks opts n 0 i ∧ SourceRouteAt opts n i

/-- The walk comes to an option that does not end in the area. -/
def Overruns (opts : List UInt8) (n : ℕ) : Prop :=
  ∃ i, Walks opts n 0 i ∧ OverrunAt opts n i

theorem nextOption_eq_some :
    nextOption opts n i = some j ↔ i < n ∧ load8 opts i = 1 ∧ j = i + 1 ∨
      i + 1 < n ∧ IsOrdinary (load8 opts i) ∧ 2 ≤ optionLength opts i ∧
        i + optionLength opts i ≤ n ∧ j = i + optionLength opts i := by
  rw [nextOption]
  split
  · next h =>
    have hord : ¬ IsOrdinary (load8 opts i) := fun hord => hord.2.1 h.2
    simp [h.1, h.2, h.2 ▸ hord, eq_comm]
  split
  · next h₁ h₂ =>
    rw [Option.some.injEq]
    exact ⟨fun h => Or.inr ⟨h₂.1, h₂.2.1, h₂.2.2.1, h₂.2.2.2, h.symm⟩, fun h =>
      h.elim (fun h => absurd ⟨h.1, h.2.1⟩ h₁) fun h => h.2.2.2.2.symm⟩
  · next h₁ h₂ =>
    exact ⟨fun h => (nomatch h), fun h => h.elim (fun h => absurd ⟨h.1, h.2.1⟩ h₁)
      fun h => absurd ⟨h.1, h.2.1, h.2.2.1, h.2.2.2.1⟩ h₂⟩

/-- The walk moves on, and stays in the area. -/
theorem lt_of_nextOption (h : nextOption opts n i = some j) : i < j ∧ j ≤ n := by
  rcases nextOption_eq_some.mp h with ⟨hi, -, rfl⟩ | ⟨-, -, hlen, hend, rfl⟩
  · omega
  · omega

/-- An option list ends one way only. -/
theorem Walks.eq_of_stuck (hi : Walks opts n 0 i) (hj : Walks opts n 0 j)
    (hstuck : nextOption opts n i = none) (hstuck' : nextOption opts n j = none) : i = j := by
  have hunique : Relator.RightUnique fun i j => nextOption opts n i = some j :=
    fun _ _ _ h h' => Option.some.inj (h.symm.trans h')
  rcases hi.total_of_right_unique hunique hj with h | h
  · rcases h.cases_head with rfl | ⟨_, hstep, -⟩
    · rfl
    · exact nomatch hstuck.symm.trans hstep
  · rcases h.cases_head with rfl | ⟨_, hstep, -⟩
    · rfl
    · exact nomatch hstuck'.symm.trans hstep

theorem EndsAt.stuck (h : EndsAt opts n i) : nextOption opts n i = none := by
  refine Option.eq_none_iff_forall_ne_some.mpr fun j hj => ?_
  rcases nextOption_eq_some.mp hj with ⟨hi, hnop, -⟩ | ⟨hi, hord, -, -, -⟩
  · rcases h with rfl | ⟨-, hzero⟩
    · exact absurd hi (lt_irrefl _)
    · exact absurd (hzero.symm.trans hnop) (by decide)
  · rcases h with rfl | ⟨-, hzero⟩
    · omega
    · exact hord.1 hzero

theorem OverrunAt.stuck (h : OverrunAt opts n i) : nextOption opts n i = none := by
  refine Option.eq_none_iff_forall_ne_some.mpr fun j hj => ?_
  rcases nextOption_eq_some.mp hj with ⟨-, hnop, -⟩ | ⟨-, -, -, hend, -⟩
  · exact h.2.1.2.1 hnop
  · exact absurd h.2.2.2 (by omega)

/-- A list with an option that points behind the area is not well formed. -/
theorem WellFormed.not_overruns (h : WellFormed opts n) : ¬ Overruns opts n := by
  rintro ⟨j, hj, hover⟩
  obtain ⟨i, hi, hend⟩ := h
  obtain rfl := hi.eq_of_stuck hj hend.stuck hover.stuck
  rcases hend with rfl | ⟨-, hzero⟩
  · exact absurd hover.1 (by omega)
  · exact hover.2.1.1 hzero

/-! ## The scanner -/

/-- Bytes that are not there read as zero. -/
theorem lt_length_of_load8_ne_zero (h : load8 opts i ≠ 0) : i < opts.length := by
  by_contra hout
  refine h ?_
  rw [load8, List.getD_eq_default _ _ (not_lt.mp hout)]

/-- One round of the scanner at an option with a length, wherever it ends. -/
theorem sourceRouteWalk_ordinary (hi : i + 1 < n) (hord : IsOrdinary (load8 opts i))
    (hlen : 2 ≤ optionLength opts i) (fuel : ℕ) :
    sourceRouteWalk opts n (fuel + 1) i =
      sourceRouteWalk opts n fuel (i + optionLength opts i) := by
  have hin : i + 1 < opts.length := by
    refine lt_length_of_load8_ne_zero fun hzero => ?_
    rw [optionLength, hzero] at hlen
    exact absurd hlen (by decide)
  have hroute : ¬ (load8 opts i = 131 ∨ load8 opts i = 137) := hord.2.2
  have hlen' : ¬ load8 opts (i + 1) < 2 := by
    rw [UInt8.lt_iff_toNat_lt]
    exact not_lt.mpr hlen
  rw [sourceRouteWalk, if_neg (by omega), if_pos (by omega), if_neg hord.1, if_neg hord.2.1,
    if_neg hroute, if_neg (by omega), if_pos (by omega), if_neg hlen']
  rfl

/-- One round of the scanner at an option that is complete. -/
theorem sourceRouteWalk_step (h : nextOption opts n i = some j) (fuel : ℕ) :
    sourceRouteWalk opts n (fuel + 1) i = sourceRouteWalk opts n fuel j := by
  rcases nextOption_eq_some.mp h with ⟨hi, hnop, rfl⟩ | ⟨hi, hord, hlen, -, rfl⟩
  · have hne : load8 opts i ≠ 0 := by
      rw [hnop]
      decide
    have hin := lt_length_of_load8_ne_zero hne
    rw [sourceRouteWalk, if_neg (by omega), if_pos (by omega), if_neg hne, if_pos hnop]
  · exact sourceRouteWalk_ordinary hi hord hlen fuel

/-- **The scanner goes through every option of the walk**: with rounds enough for the bytes that
are left, it comes to each of them with rounds enough for the rest. -/
theorem exists_fuel_of_walks (h : Walks opts n i j) (fuel : ℕ) (hfuel : n ≤ fuel + i) :
    ∃ fuel', n ≤ fuel' + j ∧ sourceRouteWalk opts n fuel i = sourceRouteWalk opts n fuel' j := by
  -- along the walk: each step takes one round and at least one byte
  induction h with
  | refl => exact ⟨fuel, hfuel, rfl⟩
  | tail _ hstep ih =>
    obtain ⟨fuel', hfuel', hwalk⟩ := ih
    have hlt := lt_of_nextOption hstep
    obtain ⟨f, rfl⟩ : ∃ f, fuel' = f + 1 := ⟨fuel' - 1, by omega⟩
    exact ⟨f, by omega, hwalk.trans (sourceRouteWalk_step hstep f)⟩

theorem sourceRouteWalk_of_sourceRouteAt (h : SourceRouteAt opts n i) {fuel : ℕ}
    (hfuel : n ≤ fuel + i) : sourceRouteWalk opts n fuel i = true := by
  have hi := h.1
  obtain ⟨f, rfl⟩ : ∃ f, fuel = f + 1 := ⟨fuel - 1, by omega⟩
  have hne : load8 opts i ≠ 0 ∧ load8 opts i ≠ 1 := by
    rcases h.2 with ht | ht
    · rw [ht]
      decide
    · rw [ht]
      decide
  have hin := lt_length_of_load8_ne_zero hne.1
  have hroute : load8 opts i = 131 ∨ load8 opts i = 137 := h.2
  rw [sourceRouteWalk, if_neg (by omega), if_pos (by omega), if_neg hne.1, if_neg hne.2,
    if_pos hroute]

/-- **No source route is overlooked.** -/
theorem SourceRouted.scanned (h : SourceRouted opts n) (hn : n ≤ 40) :
    sourceRouteWalk opts n 40 0 = true := by
  obtain ⟨i, hwalk, hroute⟩ := h
  obtain ⟨fuel, hfuel, heq⟩ := exists_fuel_of_walks hwalk 40 (by omega)
  rw [heq]
  exact sourceRouteWalk_of_sourceRouteAt hroute hfuel

theorem sourceRouteWalk_of_le (h : n ≤ i) (fuel : ℕ) : sourceRouteWalk opts n fuel i = false := by
  cases fuel with
  | zero => rfl
  | succ fuel => rw [sourceRouteWalk, if_pos h]

theorem sourceRouteWalk_of_endsAt (h : EndsAt opts n i) (hin : n ≤ opts.length) (fuel : ℕ) :
    sourceRouteWalk opts n fuel i = false := by
  rcases h with rfl | ⟨hi, hzero⟩
  · exact sourceRouteWalk_of_le le_rfl fuel
  · cases fuel with
    | zero => rfl
    | succ fuel => rw [sourceRouteWalk, if_neg (by omega), if_pos (by omega), if_pos hzero]

/-- An option that points behind the area ends the loop as the end of the area does. -/
theorem sourceRouteWalk_of_overrunAt (h : OverrunAt opts n i) (fuel : ℕ) :
    sourceRouteWalk opts n fuel i = false := by
  cases fuel with
  | zero => rfl
  | succ fuel =>
    obtain ⟨hi, hord, hlen, hover⟩ := h
    rw [sourceRouteWalk_ordinary hi hord hlen]
    exact sourceRouteWalk_of_le hover.le fuel

/-- A scan that finds nothing has come to the end of the list, or to an option that points behind
the area. -/
theorem walks_of_sourceRouteWalk (hin : n ≤ opts.length) (fuel : ℕ) :
    ∀ {i : ℕ}, i ≤ n → n ≤ fuel + i → sourceRouteWalk opts n fuel i = false →
      ∃ j, Walks opts n i j ∧ (EndsAt opts n j ∨ OverrunAt opts n j) := by
  induction fuel with
  | zero =>
    intro i hle hfuel _
    exact ⟨i, .refl, Or.inl (Or.inl (by omega))⟩
  | succ fuel ih =>
    intro i hle hfuel hscan
    by_cases hend : i = n
    · exact ⟨i, .refl, Or.inl (Or.inl hend)⟩
    rw [sourceRouteWalk, if_neg (by omega), if_pos (by omega)] at hscan
    by_cases hzero : load8 opts i = 0
    · exact ⟨i, .refl, Or.inl (Or.inr ⟨by omega, hzero⟩)⟩
    rw [if_neg hzero] at hscan
    by_cases hnop : load8 opts i = 1
    · rw [if_pos hnop] at hscan
      obtain ⟨j, hwalk, hj⟩ := ih (by omega) (by omega) hscan
      have hstep : nextOption opts n i = some (i + 1) :=
        nextOption_eq_some.mpr (Or.inl ⟨by omega, hnop, rfl⟩)
      exact ⟨j, .head hstep hwalk, hj⟩
    rw [if_neg hnop] at hscan
    by_cases hroute : load8 opts i = 131 ∨ load8 opts i = 137
    · rw [if_pos hroute] at hscan
      cases hscan
    rw [if_neg hroute] at hscan
    by_cases hlast : i + 1 ≥ n
    · rw [if_pos hlast] at hscan
      cases hscan
    rw [if_neg hlast, if_pos (by omega)] at hscan
    by_cases hshort : load8 opts (i + 1) < 2
    · rw [if_pos hshort] at hscan
      cases hscan
    rw [if_neg hshort] at hscan
    have hlen : 2 ≤ optionLength opts i := by
      rw [UInt8.lt_iff_toNat_lt] at hshort
      exact not_lt.mp hshort
    have hord : IsOrdinary (load8 opts i) := ⟨hzero, hnop, hroute⟩
    by_cases hover : n < i + optionLength opts i
    · exact ⟨i, .refl, Or.inr ⟨by omega, hord, hlen, hover⟩⟩
    · obtain ⟨j, hwalk, hj⟩ := ih (not_lt.mp hover) (by omega) hscan
      have hstep : nextOption opts n i = some (i + optionLength opts i) :=
        nextOption_eq_some.mpr (Or.inr ⟨by omega, hord, hlen, not_lt.mp hover, rfl⟩)
      exact ⟨j, .head hstep hwalk, hj⟩

/-- **What the scanner accepts**: well-formed lists without a source route, and lists with an
option that points behind the area. -/
theorem sourceRouteWalk_eq_false_iff (hn : n ≤ 40) (hin : n ≤ opts.length) :
    sourceRouteWalk opts n 40 0 = false ↔ WellFormed opts n ∨ Overruns opts n := by
  constructor
  · intro hscan
    obtain ⟨j, hwalk, hend | hover⟩ :=
      walks_of_sourceRouteWalk hin 40 (Nat.zero_le n) (by omega) hscan
    · exact Or.inl ⟨j, hwalk, hend⟩
    · exact Or.inr ⟨j, hwalk, hover⟩
  · rintro (⟨j, hwalk, hend⟩ | ⟨j, hwalk, hover⟩)
    · obtain ⟨fuel, -, heq⟩ := exists_fuel_of_walks hwalk 40 (by omega)
      exact heq.trans (sourceRouteWalk_of_endsAt hend hin fuel)
    · obtain ⟨fuel, -, heq⟩ := exists_fuel_of_walks hwalk 40 (by omega)
      exact heq.trans (sourceRouteWalk_of_overrunAt hover fuel)

theorem hasSourceRoute_eq_false (h : hasSourceRoute opts n = false) :
    n ≤ 40 ∧ sourceRouteWalk opts n 40 0 = false := by
  rw [hasSourceRoute] at h
  split at h
  · cases h
  · next hguard => exact ⟨by omega, h⟩

/-- A run of the scanner over options that are all there. -/
theorem exec_ip4HasSourceRoute (hk : k.Lawful) (hr : k.Reliable) {optoff : ℕ}
    (hoff : optoff ≤ s.skb.data.length) (n : ℕ) :
    ∃ s', exec (ip4HasSourceRoute k optoff n) s =
      (.ok (hasSourceRoute (s.skb.data.drop optoff) n), s') := by
  have hrun := refines_ip4HasSourceRoute hk (fun _ : True => hr)
    (at_startRun_split s Counter.isEgressDrop optoff) (List.length_take_of_le hoff) n
  obtain ⟨a, s', hexec, -, hab, -⟩ := hrun.exists_exec
  rw [hab trivial] at hexec
  exact ⟨s', hexec⟩

/-- **The option scanner.**  Over an option area that is all there, it answers `false` for the
well-formed lists without a source route and for the lists with an option that points behind the
area; so it tells the former exactly if there is no such option. -/
theorem option_scanner_iff (hk : k.Lawful) (hr : k.Reliable) {optoff : ℕ} (hlo : 4 ≤ n)
    (hhi : n ≤ 40) (hmul : n % 4 = 0) (hin : optoff + n ≤ s.skb.data.length) :
    ∃ b s', exec (ip4HasSourceRoute k optoff n) s = (.ok b, s') ∧
      (b = false ↔ WellFormed (s.skb.data.drop optoff) n ∨ Overruns (s.skb.data.drop optoff) n) ∧
      ((b = false ↔ WellFormed (s.skb.data.drop optoff) n) ↔
        ¬ Overruns (s.skb.data.drop optoff) n) := by
  have hoff : optoff ≤ s.skb.data.length := by omega
  obtain ⟨s', hexec⟩ := exec_ip4HasSourceRoute hk hr hoff n
  have hand : n &&& 3 = n % 4 := Nat.and_two_pow_sub_one_eq_mod n 2
  have hlen : n ≤ (s.skb.data.drop optoff).length := by
    rw [List.length_drop]
    omega
  have hscan := sourceRouteWalk_eq_false_iff hhi hlen
  rw [hasSourceRoute, if_neg (by omega)] at hexec
  refine ⟨_, s', hexec, hscan, ?_⟩
  rw [hscan]
  constructor
  · intro hiff hover
    exact (hiff.mp (Or.inr hover)).not_overruns hover
  · intro hnot
    exact or_iff_left hnot

/-- A no-op, a router alert and the end of the list. -/
def testOptions : List UInt8 :=
  [1, 148, 4, 0, 0, 0, 0, 0]

/-- The scanner accepts them, and there is nothing wrong with them. -/
theorem option_scanner_iff_router_alert :
    ∃ b s', exec (ip4HasSourceRoute .reference 0 8) (testState testOptions ethPIp) = (.ok b, s') ∧
      (b = false ↔ WellFormed testOptions 8) := by
  have hnop : nextOption testOptions 8 0 = some 1 := by decide +kernel
  have halert : nextOption testOptions 8 1 = some 5 := by decide +kernel
  have hend : EndsAt testOptions 8 5 := Or.inr ⟨by decide, rfl⟩
  have hnot : ¬ Overruns testOptions 8 :=
    WellFormed.not_overruns ⟨5, .tail (.single hnop) halert, hend⟩
  have hin : 0 + 8 ≤ (testState testOptions ethPIp).skb.data.length := by decide
  obtain ⟨b, s', hexec, -, hiff⟩ := option_scanner_iff Kernel.reference_lawful
    Kernel.reference_reliable (by decide) (by decide) (by decide) hin
  exact ⟨b, s', hexec, hiff.mpr hnot⟩

/-- A record route option of forty bytes in an area of four: the scanner accepts it. -/
theorem option_scanner_accepts_overrun :
    let s := testState [7, 40, 4, 0] ethPIp
    (exec (ip4HasSourceRoute .reference 0 4) s).1.toOption = some false ∧
      ¬ WellFormed s.skb.data 4 := by
  intro s
  refine ⟨by decide +kernel, fun hwell => hwell.not_overruns ⟨0, .refl, ?_⟩⟩
  exact ⟨by decide +kernel, by decide +kernel, by decide +kernel, by decide +kernel⟩

/-! ## Stripping -/

/-- The frame without its IPv4 options: a header of twenty bytes, and a total length that does not
count them. -/
def withoutOptions (data : List UInt8) : List UInt8 :=
  data.take ethHlen ++
    ({ Iphdr.load data ethHlen with
        ihl := 5
        totLen := bpfHtons (UInt16.ofNat ((Iphdr.load data ethHlen).length -
          ((Iphdr.load data ethHlen).headerLength - ip4Hlen))) }.bytes ++
      data.drop (ethHlen + (Iphdr.load data ethHlen).headerLength))

/-- The header has no options, or options that the scanner accepts. -/
def OptionsAccepted (data : List UInt8) : Prop :=
  (Iphdr.load data ethHlen).headerLength - ip4Hlen = 0 ∨
    hasSourceRoute (data.drop (ethHlen + ip4Hlen))
      ((Iphdr.load data ethHlen).headerLength - ip4Hlen) = false

instance (data : List UInt8) : Decidable (OptionsAccepted data) :=
  inferInstanceAs (Decidable (_ ∨ _))

section Strip

variable {data : List UInt8} {h : Iphdr} {totLen : UInt16}

/-- The local variables of `clat_egress` for a header of twenty bytes with the same payload. -/
theorem egressVars_strip (htot : (bpfNtohs totLen).toNat = h.length - (h.headerLength - ip4Hlen))
    (hihl : ip4Hlen ≤ h.headerLength) :
    egressVars { h with ihl := 5, totLen := totLen } = { egressVars h with ihl := ip4Hlen } := by
  have hl4 : (bpfNtohs totLen).toNat - 5 * 4 = (bpfNtohs h.totLen).toNat - h.ihl.toNat * 4 := by
    have hihl' : 20 ≤ 4 * h.ihl.toNat := hihl
    rw [htot]
    show (bpfNtohs h.totLen).toNat - (4 * h.ihl.toNat - 20) - 20 = _
    omega
  show EgressVars.mk _ _ _ _ _ _ _ (5 * 4) ((bpfNtohs totLen).toNat - 5 * 4) _ _ _ = _
  rw [hl4]
  rfl

/-- The header is accepted or refused for the same reason. -/
theorem egressHeader_strip (c : Constants)
    (htot : (bpfNtohs totLen).toNat = h.length - (h.headerLength - ip4Hlen))
    (hihl : ip4Hlen ≤ h.headerLength) (hle : h.headerLength ≤ h.length) :
    egressHeader c { h with ihl := 5, totLen := totLen } =
      (egressHeader c h).map fun v => { v with ihl := ip4Hlen } := by
  have hvars := egressVars_strip htot hihl
  have hihl' : 20 ≤ 4 * h.ihl.toNat := hihl
  have hle' : 4 * h.ihl.toNat ≤ (bpfNtohs h.totLen).toNat := hle
  have hshort : ¬ h.ihl.toNat * 4 < ip4Hlen := by
    show ¬ h.ihl.toNat * 4 < 20
    omega
  have hlong : ¬ (bpfNtohs h.totLen).toNat < h.ihl.toNat * 4 := by omega
  have hlong' : ¬ (bpfNtohs totLen).toNat < (5 : BitVec 4).toNat * 4 := by
    rw [htot]
    show ¬ (bpfNtohs h.totLen).toNat - (4 * h.ihl.toNat - 20) < 20
    omega
  rw [egressHeader, egressHeader, hvars, if_neg hshort, if_neg hlong]
  dsimp only
  rw [if_neg (by decide : ¬ (5 : BitVec 4).toNat * 4 < ip4Hlen), if_neg hlong']
  -- what is left does not look at the two lengths
  repeat' split
  all_goals rfl

/-- The new headers are the same. -/
theorem egressHeaders_strip (c : Constants) (v : EgressVars) (ihl : ℕ) {data' : List UInt8}
    (hmac : data'.take 12 = data.take 12) :
    egressHeaders c { v with ihl := ihl } data' = egressHeaders c v data := by
  rw [egressHeaders, egressHeaders, hmac]
  rfl

theorem iphdr_load_withoutOptions (h : ethHlen ≤ data.length) :
    Iphdr.load (withoutOptions data) ethHlen =
      { Iphdr.load data ethHlen with
        ihl := 5
        totLen := bpfHtons (UInt16.ofNat ((Iphdr.load data ethHlen).length -
          ((Iphdr.load data ethHlen).headerLength - ip4Hlen))) } :=
  Iphdr.load_append_bytes (List.length_take_of_le h) _ _

theorem take_withoutOptions (h : ethHlen ≤ data.length) :
    (withoutOptions data).take ethHlen = data.take ethHlen := by
  rw [withoutOptions, List.take_left' (List.length_take_of_le h)]

theorem hasEtherType_withoutOptions {et : UInt16} (h : HasEtherType data et) :
    HasEtherType (withoutOptions data) et := by
  have hlen : (data.take ethHlen).length = ethHlen := List.length_take_of_le h.1
  refine ⟨?_, ?_⟩
  · rw [withoutOptions, List.length_append, hlen]
    exact Nat.le_add_right _ _
  · rw [withoutOptions, load16_append_left (by rw [hlen]), ← h.2]
    conv_rhs => rw [← List.take_append_drop ethHlen data]
    rw [load16_append_left (by rw [hlen])]

/-- **Stripping is invisible to the translation.** -/
theorem egressFrame_withoutOptions (k : Kernel) (c : Constants) (st : IpSummed)
    (hihl : ip4Hlen ≤ (Iphdr.load data ethHlen).headerLength)
    (hin : ethHlen + (Iphdr.load data ethHlen).headerLength ≤ data.length)
    (hle : (Iphdr.load data ethHlen).headerLength ≤ (Iphdr.load data ethHlen).length)
    (hopt : OptionsAccepted data) :
    egressFrame k c st (withoutOptions data) = egressFrame k c st data := by
  have hihl' : 20 ≤ (Iphdr.load data ethHlen).headerLength := hihl
  have hin' : 14 + (Iphdr.load data ethHlen).headerLength ≤ data.length := hin
  have hlen : ethHlen + ip4Hlen ≤ data.length := by
    show 34 ≤ data.length
    omega
  have heth : ethHlen ≤ data.length := le_trans (Nat.le_add_right _ _) hlen
  have hlen' : ethHlen + ip4Hlen ≤ (withoutOptions data).length := by
    rw [withoutOptions, List.length_append, List.length_append, List.length_take_of_le heth,
      Iphdr.length_bytes, ← Nat.add_assoc]
    exact Nat.le_add_right _ _
  have htot : (bpfNtohs (bpfHtons (UInt16.ofNat ((Iphdr.load data ethHlen).length -
      ((Iphdr.load data ethHlen).headerLength - ip4Hlen))))).toNat =
      (Iphdr.load data ethHlen).length - ((Iphdr.load data ethHlen).headerLength - ip4Hlen) := by
    have hlt : (Iphdr.load data ethHlen).length < 65536 := UInt16.toNat_lt _
    rw [bpfNtohs, bpfHtons, bswap16_bswap16, UInt16.toNat_ofNat',
      Nat.mod_eq_of_lt (lt_of_le_of_lt (Nat.sub_le _ _) hlt)]
  have hdrop : (withoutOptions data).drop (ethHlen + ip4Hlen) =
      data.drop (ethHlen + (Iphdr.load data ethHlen).headerLength) := by
    rw [withoutOptions, drop_append_add (List.length_take_of_le heth),
      List.drop_left' (Iphdr.length_bytes _)]
  have hmac : (withoutOptions data).take 12 = data.take 12 := by
    have htake := congrArg (List.take 12) (take_withoutOptions heth)
    rwa [List.take_take, List.take_take] at htake
  rw [egressFrame, egressFrame, if_pos hlen, if_pos hlen', iphdr_load_withoutOptions heth,
    egressHeader_strip c htot hihl hle]
  rcases error_or_ok (egressHeader c (Iphdr.load data ethHlen)) with ⟨key, herr⟩ | ⟨v, hok⟩
  · rw [herr]
    rfl
  -- the header is accepted: both sides go on with the same bytes
  have hstrip : stripOptions (v.ihl - ip4Hlen) (data.drop (ethHlen + ip4Hlen)) =
      .ok ((withoutOptions data).drop (ethHlen + ip4Hlen)) := by
    obtain ⟨-, rfl⟩ := egressHeader_eq_ok.mp hok
    rw [egressVars_ihl, hdrop]
    refine stripOptions_eq_ok.mpr ⟨hopt, ?_, ?_⟩
    · rw [List.length_drop]
      show _ - 20 ≤ data.length - 34
      omega
    · rw [List.drop_drop, Nat.add_assoc, Nat.add_sub_cancel' hihl]
  rw [hok]
  show (stripOptions (ip4Hlen - ip4Hlen) _ >>= fun l4 =>
    egressPayload k c st { v with ihl := ip4Hlen } l4 >>= fun l4 =>
      .ok (egressHeaders c { v with ihl := ip4Hlen } (withoutOptions data) ++ l4)) = _
  rw [egressHeaders_strip c v ip4Hlen hmac]
  show _ = (stripOptions (v.ihl - ip4Hlen) _ >>= fun l4 =>
    egressPayload k c st v l4 >>= fun l4 => .ok (egressHeaders c v data ++ l4))
  rw [hstrip]
  rfl

end Strip

/-- Two runs, from `s` and from `s'`, that end the same way: with the same verdict, the same bytes
if the packet goes on, and the same counter. -/
structure SameOutcome (s s' : State) (res res' : TcAct × State) : Prop where
  verdict : res.1 = res'.1
  data : res.1 = .ok → res.2.skb.data = res'.2.skb.data
  counter : ∃ key, res.2.counters = bump s.counters key ∧ res'.2.counters = bump s'.counters key

/-- Frames with the same translation have the same outcome. -/
theorem sameOutcome_of_egressFrame (hk : k.Lawful) {s' : State} (hn : NoFault k s ethPIp)
    (hn' : NoFault k s' ethPIp) (hipv4 : HasEtherType s.skb.data ethPIp)
    (hipv4' : HasEtherType s'.skb.data ethPIp)
    (hframe : egressFrame k c s'.skb.ipSummed s'.skb.data
      = egressFrame k c s.skb.ipSummed s.skb.data) :
    SameOutcome s s' (clatEgress k c s) (clatEgress k c s') := by
  rcases clatEgress_cases (c := c) hk hipv4 with ⟨out, hout, htr⟩ | ⟨key, -, hdrop, herr⟩
  · rcases clatEgress_cases (c := c) hk hipv4' with ⟨out', hout', htr'⟩ | ⟨key', -, -, herr'⟩
    · cases Except.ok.inj (hout'.symm.trans (hframe.trans hout))
      exact ⟨htr.verdict.trans htr'.verdict.symm, fun _ => htr.data.trans htr'.data.symm,
        _, htr.counters, htr'.counters⟩
    · exact nomatch (herr' hn').symm.trans (hframe.trans hout)
  · rcases clatEgress_cases (c := c) hk hipv4' with ⟨out', hout', -⟩ | ⟨key', -, hdrop', herr'⟩
    · exact nomatch hout'.symm.trans (hframe.trans (herr hn))
    · cases Except.error.inj ((herr' hn').symm.trans (hframe.trans (herr hn)))
      exact ⟨hdrop.verdict.trans hdrop'.verdict.symm,
        fun hok => absurd (hok.symm.trans hdrop.verdict) (by decide),
        _, hdrop.counters, hdrop'.counters⟩

/-- A packet with a source route is dropped. -/
theorem SourceRouted.shot (hk : k.Lawful) (c : Constants) (hipv4 : HasEtherType s.skb.data ethPIp)
    (h : SourceRouted (s.skb.data.drop (ethHlen + ip4Hlen))
      ((Iphdr.load s.skb.data ethHlen).headerLength - ip4Hlen)) :
    (clatEgress k c s).1 = .shot := by
  rcases clatEgress_cases (c := c) hk hipv4 with ⟨out, hout, -⟩ | ⟨key, -, hdrop, -⟩
  · obtain ⟨-, -, hopt, -⟩ := egressFrame_eq_ok.mp hout
    rw [egressVars_ihl] at hopt
    rcases hopt with hnone | hscan
    · obtain ⟨i, -, hroute⟩ := h
      exact absurd hroute.1 (by omega)
    · obtain ⟨hn, hfalse⟩ := hasSourceRoute_eq_false hscan
      exact nomatch (h.scanned hn).symm.trans hfalse
  · exact hdrop.verdict

/-- **Option stripping is invisible.**  A frame whose options the scanner accepts, all of which are
there, is treated as the frame without them: same verdict, same bytes, same counter.  And whatever
the helpers do, a frame whose option walk comes to a source route is dropped. -/
theorem options_invisible (hk : k.Lawful) (c : Constants) (s : State)
    (hipv4 : HasEtherType s.skb.data ethPIp) :
    (∀ s', ip4Hlen < (Iphdr.load s.skb.data ethHlen).headerLength →
      ethHlen + (Iphdr.load s.skb.data ethHlen).headerLength ≤ s.skb.data.length →
      (Iphdr.load s.skb.data ethHlen).headerLength ≤ (Iphdr.load s.skb.data ethHlen).length →
      (∃ s₁, exec (ip4HasSourceRoute k (ethHlen + ip4Hlen)
        ((Iphdr.load s.skb.data ethHlen).headerLength - ip4Hlen)) s = (.ok false, s₁)) →
      s'.skb.data = withoutOptions s.skb.data → s'.skb.ipSummed = s.skb.ipSummed →
      NoFault k s ethPIp → NoFault k s' ethPIp →
      SameOutcome s s' (clatEgress k c s) (clatEgress k c s')) ∧
    (SourceRouted (s.skb.data.drop (ethHlen + ip4Hlen))
        ((Iphdr.load s.skb.data ethHlen).headerLength - ip4Hlen) →
      (clatEgress k c s).1 = .shot) := by
  refine ⟨fun s' hihl hin hle hscan hdata hsummed hn hn' => ?_, fun h => h.shot hk c hipv4⟩
  have hoff : ethHlen + ip4Hlen ≤ s.skb.data.length :=
    le_trans (Nat.add_le_add_left hihl.le _) hin
  have hopt : OptionsAccepted s.skb.data := by
    obtain ⟨s₁, hfalse⟩ := hscan
    obtain ⟨s₂, hexec⟩ := exec_ip4HasSourceRoute hk hn.1 hoff
      ((Iphdr.load s.skb.data ethHlen).headerLength - ip4Hlen)
    exact Or.inr (Except.ok.inj (congrArg Prod.fst (hexec.symm.trans hfalse)))
  have hipv4' : HasEtherType s'.skb.data ethPIp := by
    rw [hdata]
    exact hasEtherType_withoutOptions hipv4
  refine sameOutcome_of_egressFrame hk hn hn' hipv4 hipv4' ?_
  rw [hdata, hsummed, egressFrame_withoutOptions k c _ hihl.le hin hle hopt]

/-- A TCP segment of the packet tests with four bytes of options. -/
def testOptionFrame (opts : List UInt8) : List UInt8 :=
  let h4 : Iphdr := { Iphdr.load (testFrame4 0 6 (List.replicate 20 0)) ethHlen with
    ihl := 6
    totLen := bpfHtons 44 }
  testMacs ++ (le16Bytes (bpfHtons ethPIp) ++ (h4.bytes ++ (opts ++ List.replicate 20 0)))

/-- A segment with a router alert is translated as if it had none, and one with a loose source route
is dropped. -/
theorem options_invisible_segments :
    let s := testState (testOptionFrame [148, 4, 0, 0]) ethPIp
    let s' := testState (withoutOptions (testOptionFrame [148, 4, 0, 0])) ethPIp
    let r := testState (testOptionFrame [131, 3, 4, 0]) ethPIp
    ((clatEgress .reference testConstants s).1 = .ok ∧
      SameOutcome s s' (clatEgress .reference testConstants s)
        (clatEgress .reference testConstants s')) ∧
      (clatEgress .reference testConstants r).1 = .shot := by
  intro s s' r
  have hk := Kernel.reference_lawful
  have hn : NoFault .reference s ethPIp := ⟨Kernel.reference_reliable, rfl⟩
  have hn' : NoFault .reference s' ethPIp := ⟨Kernel.reference_reliable, rfl⟩
  have hipv4 : HasEtherType s.skb.data ethPIp := by decide +kernel
  have hipv4' : HasEtherType r.skb.data ethPIp := by decide +kernel
  obtain ⟨s₁, hscan⟩ := exec_ip4HasSourceRoute (s := s) hk Kernel.reference_reliable
    (show ethHlen + ip4Hlen ≤ _ by decide +kernel)
    ((Iphdr.load s.skb.data ethHlen).headerLength - ip4Hlen)
  have hfalse : hasSourceRoute (s.skb.data.drop (ethHlen + ip4Hlen))
      ((Iphdr.load s.skb.data ethHlen).headerLength - ip4Hlen) = false := by decide +kernel
  rw [hfalse] at hscan
  have hroute : SourceRouted (r.skb.data.drop (ethHlen + ip4Hlen))
      ((Iphdr.load r.skb.data ethHlen).headerLength - ip4Hlen) :=
    ⟨0, .refl, by decide +kernel, by decide +kernel⟩
  exact ⟨⟨by decide +kernel, (options_invisible hk testConstants s hipv4).1 s' (by decide +kernel)
      (by decide +kernel) (by decide +kernel) ⟨s₁, hscan⟩ rfl rfl hn hn'⟩,
    (options_invisible hk testConstants r hipv4').2 hroute⟩

end CiliumClat
