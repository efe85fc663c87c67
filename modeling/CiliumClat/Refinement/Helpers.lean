import CiliumClat.Translation.Edits

/-!
# One rule for each helper

What a helper call does to the *bytes* of the packet, in the form in which programs are
followed: a rule for each helper, to be chained by the rules of `EarlyExit.Refines`.

`At r proto data s` pins down everything the two programs depend on in the state `s`: the bytes
of the frame, `skb->protocol`, and what does not change during a run `r` --- the counters, which
only the exits touch, the checksum state, and, where the run is `balanced`, the
`CHECKSUM_COMPLETE` bookkeeping: `skb->csum` is the sum of the bytes from the network header on.

A rule says: if the call succeeds then the range was inside the packet and the state is `At` the
edited bytes; if it fails then the program drops with its counter; and a reliable kernel fails
only when the range is outside the packet.
-/

namespace CiliumClat

open ByteList OnesComplement EarlyExit

/-! ## Where a run stands -/

/-- What stays the same from the beginning of a run to its exit: the counters at the start, the
checksum state, the counters the program may drop with, and whether the bookkeeping of
`skb->csum` is followed. -/
structure Run where
  counters : Counter → ℕ
  ipSummed : IpSummed
  drops : Counter → Bool
  balanced : Prop

/-- Stopping with a drop: the verdict is `TC_ACT_SHOT`, and the counter of the reason is one
higher. -/
def Run.stop (r : Run) (v : TcAct) (s : State) (key : Counter) : Prop :=
  v = .shot ∧ r.drops key = true ∧ s.counters = bump r.counters key

/-- The state `s` of the run `r` holds the frame `data` with protocol `proto`. -/
structure At (r : Run) (proto : UInt16) (data : List UInt8) (s : State) : Prop where
  counters : s.counters = r.counters
  ipSummed : s.skb.ipSummed = r.ipSummed
  protocol : s.skb.protocol = proto
  data : s.skb.data = data
  csum : r.balanced → r.ipSummed = .checksumComplete →
    (s.skb.csum.toNat : ZMod 65535) = s.skb.netSum

/-- The run that starts in the state `s`, with the bookkeeping of `skb->csum` left aside. -/
def State.startRun (s : State) (drops : Counter → Bool) : Run where
  counters := s.counters
  ipSummed := s.skb.ipSummed
  drops := drops
  balanced := False

theorem at_startRun (s : State) (drops : Counter → Bool) :
    At (s.startRun drops) s.skb.protocol s.skb.data s :=
  ⟨rfl, rfl, rfl, rfl, False.elim⟩

/-- The same at a position of the packet, as the rules of the helpers take it. -/
theorem at_startRun_split (s : State) (drops : Counter → Bool) (off : ℕ) :
    At (s.startRun drops) s.skb.protocol (s.skb.data.take off ++ s.skb.data.drop off) s := by
  rw [List.take_append_drop]
  exact at_startRun s drops

/-! ## How a run ends -/

/-- The helpers do not fail in a run from the state `s`: the kernel is reliable, and
`skb->protocol` is `proto`, as the EtherType of the frame says. -/
def NoFault (k : Kernel) (s : State) (proto : UInt16) : Prop :=
  k.Reliable ∧ s.skb.protocol = bpfHtons proto

/-- A run that lets the packet pass: no byte and no counter has changed. -/
structure Passed (s : State) (res : TcAct × State) : Prop where
  verdict : res.1 = .ok
  data : res.2.skb.data = s.skb.data
  protocol : res.2.skb.protocol = s.skb.protocol
  ipSummed : res.2.skb.ipSummed = s.skb.ipSummed
  counters : res.2.counters = s.counters

/-- A run that drops the packet with the counter `key`. -/
structure Dropped (s : State) (key : Counter) (res : TcAct × State) : Prop where
  verdict : res.1 = .shot
  counters : res.2.counters = bump s.counters key

/-- A run that translates the packet into the frame `out` and counts it with `key`. -/
structure Translated (s : State) (key : Counter) (proto : UInt16) (out : List UInt8)
    (res : TcAct × State) : Prop where
  verdict : res.1 = .ok
  data : res.2.skb.data = out
  protocol : res.2.skb.protocol = proto
  ipSummed : res.2.skb.ipSummed = s.skb.ipSummed
  counters : res.2.counters = bump s.counters key

/-! ## Runs of the primitives -/

theorem exec_callHelper (f : ℕ → Skb → Option Skb) (s : State) :
    exec (callHelper f) s =
      match f s.calls s.skb with
      | some skb => (.ok true, { s with skb := skb, calls := s.calls + 1 })
      | none => (.ok false, { s with calls := s.calls + 1 }) := by
  rw [callHelper, exec_bind_ok (exec_get s)]
  cases f s.calls s.skb with
  | some skb => rfl
  | none => rfl

theorem exec_drop {α : Type} (key : Counter) (s : State) :
    exec (drop key : Clat α) s = (.error .shot, { s with counters := bump s.counters key }) :=
  rfl

theorem exec_bpfSkbLoadBytes (k : Kernel) (off len : ℕ) (s : State) :
    exec (bpfSkbLoadBytes k off len) s =
      (.ok (k.skbLoadBytes s.calls s.skb off len), { s with calls := s.calls + 1 }) :=
  rfl

section Rules

variable {r : Run} {reliable : Prop} {key : Counter} {s : State} {proto : UInt16}
  {data : List UInt8}

theorem refines_drop {α β : Type} {R : α → β → State → Prop} (hs : s.counters = r.counters)
    (hkey : r.drops key = true) :
    Refines r.stop reliable (drop key : Clat α) (.error key : Except Counter β) R s := by
  refine Refines.of_error (exec_drop key s) ⟨rfl, hkey, ?_⟩ fun _ => rfl
  rw [← hs]

theorem refines_orDropWith {α : Type} (hs : s.counters = r.counters) {e : Except Counter α}
    (hkey : ∀ key, e = .error key → r.drops key = true) :
    Refines r.stop reliable (orDropWith e) e (fun a b s' => a = b ∧ s' = s) s := by
  cases e with
  | ok a => exact Refines.pure ⟨rfl, rfl⟩
  | error key => exact refines_drop hs (hkey key rfl)

/-- The idiom `if (helper(...) < 0) return DROP(key)`. -/
theorem refines_orDrop {f : ℕ → Skb → Option Skb} {inRange : Prop} [Decidable inRange]
    {P : State → Prop} (hs : s.counters = r.counters) (hkey : r.drops key = true)
    (hsome : ∀ skb, f s.calls s.skb = some skb →
      inRange ∧ P { s with skb := skb, calls := s.calls + 1 })
    (hnone : reliable → inRange → (f s.calls s.skb).isSome) :
    Refines r.stop reliable (orDrop (callHelper f) key)
      (if inRange then .ok () else .error key) (fun _ _ s' => P s') s := by
  have hcall := exec_callHelper f s
  cases hf : f s.calls s.skb with
  | some skb =>
    obtain ⟨hin, hP⟩ := hsome skb hf
    rw [hf] at hcall
    rw [if_pos hin]
    exact Refines.exec_step hcall (Refines.pure hP)
  | none =>
    rw [hf] at hcall
    refine Refines.exec_step hcall (Refines.of_error (exec_drop key _) ⟨rfl, hkey, ?_⟩ ?_)
    · rw [← hs]
    · intro hr
      have hout : ¬ inRange := fun hin => by
        have := hnone hr hin
        rw [hf] at this
        exact absurd this (by simp)
      rw [if_neg hout]

/-- The same idiom for a call that a reliable kernel never refuses. -/
theorem refines_orDrop_ok {f : ℕ → Skb → Option Skb} {P : State → Prop}
    (hs : s.counters = r.counters) (hkey : r.drops key = true)
    (hsome : ∀ skb, f s.calls s.skb = some skb → P { s with skb := skb, calls := s.calls + 1 })
    (hnone : reliable → (f s.calls s.skb).isSome) :
    Refines r.stop reliable (orDrop (callHelper f) key) (.ok ()) (fun _ _ s' => P s') s := by
  have h : Refines r.stop reliable (orDrop (callHelper f) key)
      (if True then .ok () else .error key) (fun _ _ s' => P s') s :=
    refines_orDrop hs hkey (fun skb hf => ⟨trivial, hsome skb hf⟩) fun hrel _ => hnone hrel
  rwa [if_pos trivial] at h

/-! ## The bookkeeping of `skb->csum` -/

/-- The stores of the programs: on the network side of the frame with recomputation, or in the
MAC header without. -/
def StoreCovered (off len : ℕ) (recompute : Bool) : Prop :=
  recompute = true ∧ ethHlen ≤ off ∧ off % 2 = 0 ∨ recompute = false ∧ off + len ≤ ethHlen

/-- What comes from the network header on, after an overwrite behind it. -/
theorem drop_splice_of_le {l bs : List UInt8} {n off : ℕ} (hn : n ≤ off)
    (h : off + bs.length ≤ l.length) :
    (splice l off bs).drop n = splice (l.drop n) (off - n) bs := by
  have hlen : (l.take n).length = n := by
    rw [List.length_take]
    omega
  obtain ⟨i, rfl⟩ := Nat.exists_eq_add_of_le hn
  conv_lhs => rw [← List.take_append_drop n l, splice_append_add hlen, List.drop_left' hlen]
  rw [Nat.add_sub_cancel_left]

theorem drop_cut_of_le {l : List UInt8} {n off m : ℕ} (hn : n ≤ off) (h : off + m ≤ l.length) :
    (cut l off m).drop n = cut (l.drop n) (off - n) m := by
  have hlen : (l.take n).length = n := by
    rw [List.length_take]
    omega
  obtain ⟨i, rfl⟩ := Nat.exists_eq_add_of_le hn
  conv_lhs => rw [← List.take_append_drop n l, cut_append_add hlen, List.drop_left' hlen]
  rw [Nat.add_sub_cancel_left]

/-- An overwrite in front of the network header does not touch what comes from there on. -/
theorem drop_splice_of_ge {l bs : List UInt8} {n off : ℕ} (hn : off + bs.length ≤ n)
    (h : off + bs.length ≤ l.length) : (splice l off bs).drop n = l.drop n := by
  have hlen : (l.take off ++ bs).length = off + bs.length := by
    rw [List.length_append, List.length_take]
    omega
  obtain ⟨i, rfl⟩ := Nat.exists_eq_add_of_le hn
  rw [splice, ← List.append_assoc, drop_append_add hlen, List.drop_drop]

/-- The sum from the network header on, after an overwrite at an even position. -/
theorem cast_netSum_splice {l bs : List UInt8} {off : ℕ} (hoff : ethHlen ≤ off)
    (heven : off % 2 = 0) (h : off + bs.length ≤ l.length) :
    (leSum ((splice l off bs).drop ethHlen) : ZMod 65535)
      = leSum (l.drop ethHlen) + (leSum bs - leSum (slice l off bs.length)) := by
  have hslice : slice (l.drop ethHlen) (off - ethHlen) bs.length = slice l off bs.length := by
    rw [slice, slice, List.drop_drop, Nat.add_sub_cancel' hoff]
  have hsum : leSum (splice (l.drop ethHlen) (off - ethHlen) bs)
      + leSum (slice (l.drop ethHlen) (off - ethHlen) bs.length)
      = leSum (l.drop ethHlen) + leSum bs := by
    refine leSum_splice (show (off - 14) % 2 = 0 by omega) ?_
    rw [List.length_drop]
    omega
  have hcast := congrArg (Nat.cast (R := ZMod 65535)) hsum
  rw [drop_splice_of_le hoff h, ← hslice]
  push_cast at hcast
  linear_combination hcast

theorem StoreEffect.balanced {skb skb' : Skb} {off : ℕ} {bs : List UInt8} {recompute : Bool}
    (he : StoreEffect skb off bs recompute skb') (hc : StoreCovered off bs.length recompute)
    (hst : skb.ipSummed = .checksumComplete) (h : (skb.csum.toNat : ZMod 65535) = skb.netSum) :
    (skb'.csum.toNat : ZMod 65535) = skb'.netSum := by
  rw [he.csum hst, h, Skb.netSum, Skb.netSum, he.data]
  rcases hc with ⟨rfl, hoff, heven⟩ | ⟨rfl, hoff⟩
  · rw [if_pos rfl, heven, pow_zero, one_mul, cast_netSum_splice hoff heven he.inBounds]
  · rw [if_neg Bool.false_ne_true, add_zero, drop_splice_of_ge hoff he.inBounds]

theorem RemoveEffect.balanced {skb skb' : Skb} {off n : ℕ} (he : RemoveEffect skb off n skb')
    (hoff : ethHlen ≤ off) (heven : off % 2 = 0) (hn : n % 2 = 0)
    (hst : skb.ipSummed = .checksumComplete) (h : (skb.csum.toNat : ZMod 65535) = skb.netSum) :
    (skb'.csum.toNat : ZMod 65535) = skb'.netSum := by
  have hin := he.inBounds
  have hslice : slice (skb.data.drop ethHlen) (off - ethHlen) n = slice skb.data off n := by
    rw [slice, slice, List.drop_drop, Nat.add_sub_cancel' hoff]
  have hsum : leSum (cut (skb.data.drop ethHlen) (off - ethHlen) n)
      + leSum (slice (skb.data.drop ethHlen) (off - ethHlen) n)
      = leSum (skb.data.drop ethHlen) := by
    refine leSum_cut (show (off - 14) % 2 = 0 by omega) hn ?_
    rw [List.length_drop]
    omega
  have hcast := congrArg (Nat.cast (R := ZMod 65535)) hsum
  rw [he.csum hst, h, Skb.netSum, Skb.netSum, he.data, drop_cut_of_le hoff he.inBounds, ← hslice]
  push_cast at hcast
  linear_combination -hcast

/-- An update through `bpf_l4_csum_replace` moves the field by minus the difference, and
`skb->csum` with it. -/
theorem L4CsumEffect.balanced {skb skb' : Skb} {off : ℕ} {diff : UInt32} {flags : CsumFlags}
    (he : L4CsumEffect skb off diff flags skb') (hoff : ethHlen ≤ off) (heven : off % 2 = 0)
    (hp : flags.pseudoHdr = true)
    (hz : ¬ (flags.markMangled0 ∧ ¬ flags.markEnforce ∧ load16 skb.data off = 0))
    (hst : skb.ipSummed = .checksumComplete) (h : (skb.csum.toNat : ZMod 65535) = skb.netSum) :
    (skb'.csum.toNat : ZMod 65535) = skb'.netSum := by
  have hsign : IpSummed.sign .checksumComplete = -1 := rfl
  rw [he.csum hst hp hz, h, Skb.netSum, Skb.netSum, he.data,
    cast_netSum_splice hoff heven (by simpa using he.inBounds), length_le16Bytes,
    slice_two he.inBounds,
    leSum_le16Bytes, leSum_le16Bytes, cast_l4CsumField hp hz, hst, hsign]
  ring

/-! ## The helpers -/

variable {k : Kernel} (hk : k.Lawful) (hr : reliable → k.Reliable)

include hk in
/-- `bpf_skb_pull_data` may change what is linear, nothing else. -/
theorem At.pullData (h : At r proto data s) (len : ℕ) :
    ∃ b s', exec (bpfSkbPullData k len) s = (.ok b, s') ∧ At r proto data s' := by
  rw [bpfSkbPullData, exec_callHelper]
  cases hf : k.skbPullData s.calls s.skb len with
  | none => exact ⟨false, _, rfl, h.counters, h.ipSummed, h.protocol, h.data, h.csum⟩
  | some skb =>
    have hsame := hk.pullData hf
    refine ⟨true, _, rfl, h.counters, hsame.ipSummed.trans h.ipSummed,
      hsame.protocol.trans h.protocol, hsame.data.trans h.data, fun hb hst => ?_⟩
    show (skb.csum.toNat : ZMod 65535) = leSum (skb.data.drop ethHlen)
    rw [hsame.csum, hsame.data]
    exact h.csum hb hst

/-- The Ethernet header is linear whenever it is there. -/
theorem ethHlen_le_headlen (skb : Skb) : ethHlen ≤ skb.headlen ↔ ethHlen ≤ skb.data.length := by
  have h₁ := skb.headlen_le
  have h₂ := skb.mac_linear
  omega

/-- Whether `ensure_linear(skb, len)` answers true in the state `s`: the bytes are linear, or
pulling them makes them so. -/
def Linearises (k : Kernel) (len : ℕ) (s : State) : Prop :=
  len ≤ s.skb.headlen ∨
    ∃ skb, k.skbPullData s.calls s.skb len = some skb ∧ len ≤ skb.headlen

include hk in
/-- `ensure_linear`. -/
theorem At.ensureLinear (h : At r proto data s) (len : ℕ) :
    ∃ b s', exec (ensureLinear k len) s = (.ok b, s') ∧ At r proto data s' ∧
      (b = true → len ≤ s'.skb.headlen) ∧ (b = true ↔ Linearises k len s) := by
  rw [CiliumClat.ensureLinear, exec_bind_ok (exec_get s)]
  by_cases hlin : s.skb.headlen ≥ len
  · rw [if_pos hlin]
    exact ⟨true, s, rfl, h, fun _ => hlin, fun _ => Or.inl hlin, fun _ => rfl⟩
  · rw [if_neg hlin]
    obtain ⟨b, s', hpull, hat⟩ := h.pullData hk len
    have hcall := exec_callHelper (fun n skb => k.skbPullData n skb len) s
    rw [bpfSkbPullData] at hpull
    rw [bpfSkbPullData, exec_bind_ok hpull]
    rw [hpull] at hcall
    cases hf : k.skbPullData s.calls s.skb len with
    | none =>
      rw [hf] at hcall
      obtain ⟨hb, -⟩ := Prod.mk.inj hcall
      cases Except.ok.inj hb
      refine ⟨false, s', rfl, hat, by simp, by simp, fun hl => ?_⟩
      rcases hl with hl | ⟨skb, hskb, -⟩
      · exact absurd hl hlin
      · rw [hf] at hskb
        exact absurd hskb (by simp)
    | some skb =>
      rw [hf] at hcall
      obtain ⟨hb, hs'⟩ := Prod.mk.inj hcall
      cases Except.ok.inj hb
      have hskb : s'.skb = skb := by rw [hs']
      refine ⟨decide (s'.skb.headlen ≥ len), s', rfl, hat, of_decide_eq_true, ?_⟩
      rw [decide_eq_true_iff, hskb, Linearises, hf]
      exact ⟨fun hl => Or.inr ⟨skb, rfl, hl⟩, fun hl => hl.elim (fun hl => absurd hl hlin)
        fun ⟨_, hskb', hl⟩ => Option.some.inj hskb' ▸ hl⟩

/-- A kernel whose `bpf_skb_pull_data` fails only when the packet is too short. -/
def Kernel.PullsData (k : Kernel) : Prop :=
  ∀ {n s len}, len ≤ s.data.length → ∃ s', k.skbPullData n s len = some s' ∧ len ≤ s'.headlen

theorem Kernel.PullsData.linearises (hpull : k.PullsData) {len : ℕ}
    (hlen : len ≤ s.skb.data.length) : Linearises k len s :=
  Or.inr (hpull hlen)

include hk hr in
/-- `bpf_skb_load_bytes` whose failure drops the packet. -/
theorem At.load (h : At r proto data s) (hkey : r.drops key = true) {off len : ℕ} {α β : Type}
    {g : Option (List UInt8) → Clat α} {e : Except Counter β} {R : α → β → State → Prop}
    (hnone : g none = drop key)
    (hsome : off + len ≤ data.length → ∀ s', At r proto data s' →
      Refines r.stop reliable (g (some (slice data off len))) e R s') :
    Refines r.stop reliable (bpfSkbLoadBytes k off len >>= g)
      (if off + len ≤ data.length then e else .error key) R s := by
  have hload := exec_bpfSkbLoadBytes k off len s
  have hs' : At r proto data { s with calls := s.calls + 1 } :=
    ⟨h.counters, h.ipSummed, h.protocol, h.data, h.csum⟩
  refine Refines.exec_step hload ?_
  cases hf : k.skbLoadBytes s.calls s.skb off len with
  | some bs =>
    obtain ⟨hin, rfl⟩ := hk.loadBytes hf
    rw [h.data] at hin ⊢
    rw [if_pos hin]
    exact hsome hin _ hs'
  | none =>
    rw [hnone]
    refine Refines.of_error (exec_drop key _) ⟨rfl, hkey, ?_⟩ fun hrel => ?_
    · rw [← h.counters]
    · refine if_neg fun hin => ?_
      rw [← h.data] at hin
      have := (hr hrel).loadBytes (n := s.calls) hin
      rw [hf] at this
      exact absurd this (by simp)

include hk hr in
/-- `bpf_skb_store_bytes`. -/
theorem At.store (h : At r proto data s) (hkey : r.drops key = true) (off : ℕ)
    (bs : List UInt8) (recompute : Bool) (hc : StoreCovered off bs.length recompute) :
    Refines r.stop reliable (orDrop (bpfSkbStoreBytes k off bs recompute) key)
      (if off + bs.length ≤ data.length then .ok () else .error key)
      (fun _ _ s' => At r proto (splice data off bs) s') s := by
  refine refines_orDrop h.counters hkey (fun skb hf => ?_) fun hrel hin => ?_
  · have he := hk.storeBytes hf
    have hin := he.inBounds
    have hdata := he.data
    rw [h.data] at hin hdata
    exact ⟨hin, h.counters, he.ipSummed.trans h.ipSummed, he.protocol.trans h.protocol, hdata,
      fun hb hst => he.balanced hc (h.ipSummed.trans hst) (h.csum hb hst)⟩
  · rw [← h.data] at hin
    exact (hr hrel).storeBytes hin

include hk hr in
/-- `bpf_l4_csum_replace`. -/
theorem At.l4CsumReplace (h : At r proto data s) (hkey : r.drops key = true) (off : ℕ)
    (diff : UInt32) {flags : CsumFlags} (hoff : ethHlen ≤ off) (heven : off % 2 = 0)
    (hmax : off ≤ 0xffff) (hp : flags.pseudoHdr = true)
    (hz : r.balanced → ¬ (flags.markMangled0 ∧ ¬ flags.markEnforce ∧ load16 data off = 0)) :
    Refines r.stop reliable (orDrop (bpfL4CsumReplace k off 0 diff flags) key)
      (if off + 2 ≤ data.length then .ok () else .error key)
      (fun _ _ s' => At r proto (splice data off
        (le16Bytes (l4CsumField r.ipSummed flags (load16 data off) diff))) s') s := by
  refine refines_orDrop h.counters hkey (fun skb hf => ?_) fun hrel hin => ?_
  · have he := hk.l4CsumReplace hf
    have hin := he.inBounds
    have hdata := he.data
    rw [h.data] at hin
    rw [h.data, h.ipSummed] at hdata
    refine ⟨hin, h.counters, he.ipSummed.trans h.ipSummed, he.protocol.trans h.protocol, hdata,
      fun hb hst => he.balanced hoff heven hp ?_ (h.ipSummed.trans hst) (h.csum hb hst)⟩
    rw [h.data]
    exact hz hb
  · rw [← h.data] at hin
    exact (hr hrel).l4CsumReplace hin heven hmax

/-! ## Edits behind the headers

The same rules for a frame split at the end `off` of its headers `hd`. -/

variable {hd l : List UInt8} {off i : ℕ}

include hk hr in
theorem At.loadTail (h : At r proto (hd ++ l) s) (hhd : hd.length = off)
    (hkey : r.drops key = true) {n : ℕ} {α β : Type} {g : Option (List UInt8) → Clat α}
    {e : List UInt8 → Except Counter β} {R : α → β → State → Prop} (hnone : g none = drop key)
    (hsome : i + n ≤ l.length → ∀ s', At r proto (hd ++ l) s' →
      Refines r.stop reliable (g (some (slice l i n))) (e (slice l i n)) R s') :
    Refines r.stop reliable (bpfSkbLoadBytes k (off + i) n >>= g) (loadAt key i n l >>= e) R s := by
  have hlen : off + i + n ≤ (hd ++ l).length ↔ i + n ≤ l.length := by
    rw [List.length_append]
    omega
  have hbind : loadAt key i n l >>= e =
      if off + i + n ≤ (hd ++ l).length then e (slice l i n) else .error key := by
    rw [loadAt]
    by_cases hin : i + n ≤ l.length
    · rw [if_pos hin, if_pos (hlen.mpr hin)]
      rfl
    · rw [if_neg hin, if_neg (hlen.not.mpr hin)]
      rfl
  rw [hbind]
  refine h.load hk hr hkey hnone fun hin s' hs' => ?_
  rw [slice_append_add hhd]
  exact hsome (hlen.mp hin) s' hs'

include hk hr in
/-- A load that the program goes on from either way. -/
theorem At.loadOption (h : At r proto (hd ++ l) s) (hhd : hd.length = off) {n : ℕ} {α β : Type}
    {g : Option (List UInt8) → Clat α} {e : Except Counter β} {R : α → β → State → Prop}
    (hsome : i + n ≤ l.length → ∀ s', At r proto (hd ++ l) s' →
      Refines r.stop reliable (g (some (slice l i n))) e R s')
    (hnone : (reliable → ¬ i + n ≤ l.length) → ∀ s', At r proto (hd ++ l) s' →
      Refines r.stop reliable (g none) e R s') :
    Refines r.stop reliable (bpfSkbLoadBytes k (off + i) n >>= g) e R s := by
  have hlen : off + i + n ≤ s.skb.data.length ↔ i + n ≤ l.length := by
    rw [h.data, List.length_append]
    omega
  have hs' : At r proto (hd ++ l) { s with calls := s.calls + 1 } :=
    ⟨h.counters, h.ipSummed, h.protocol, h.data, h.csum⟩
  refine Refines.exec_step (exec_bpfSkbLoadBytes k (off + i) n s) ?_
  cases hf : k.skbLoadBytes s.calls s.skb (off + i) n with
  | some bs =>
    obtain ⟨hin, rfl⟩ := hk.loadBytes hf
    rw [h.data, slice_append_add hhd]
    exact hsome (hlen.mp hin) _ hs'
  | none =>
    refine hnone (fun hrel hin => ?_) _ hs'
    have := (hr hrel).loadBytes (n := s.calls) (hlen.mpr hin)
    rw [hf] at this
    exact absurd this (by simp)

include hk hr in
theorem At.storeTail (h : At r proto (hd ++ l) s) (hhd : hd.length = off)
    (hkey : r.drops key = true) (bs : List UInt8) (hoff : ethHlen ≤ off)
    (heven : (off + i) % 2 = 0) :
    Refines r.stop reliable (orDrop (bpfSkbStoreBytes k (off + i) bs storeFlags) key)
      (storeAt key i bs l) (fun _ out s' => At r proto (hd ++ out) s') s := by
  have hlen : off + i + bs.length ≤ (hd ++ l).length ↔ i + bs.length ≤ l.length := by
    rw [List.length_append]
    omega
  have hrule := h.store hk hr hkey (off + i) bs storeFlags (Or.inl ⟨rfl, by omega, heven⟩)
  rw [splice_append_add hhd] at hrule
  rw [storeAt]
  by_cases hin : i + bs.length ≤ l.length
  · rw [if_pos (hlen.mpr hin)] at hrule
    rw [if_pos hin]
    exact hrule.value fun _ _ hs' => hs'
  · rw [if_neg (hlen.not.mpr hin)] at hrule
    rw [if_neg hin]
    exact hrule.value_error

include hk hr in
/-- Overwriting the part `b` behind `hd` by something of its length. -/
theorem At.overwrite {b bs : List UInt8} (h : At r proto (hd ++ (b ++ l)) s)
    (hhd : hd.length = off) (hb : b.length = bs.length) (hkey : r.drops key = true)
    {recompute : Bool} (hc : StoreCovered off bs.length recompute) :
    Refines r.stop reliable (orDrop (bpfSkbStoreBytes k off bs recompute) key) (.ok ())
      (fun _ _ s' => At r proto (hd ++ (bs ++ l)) s') s := by
  have hrule := h.store hk hr hkey off bs recompute hc
  have hin : off + bs.length ≤ (hd ++ (b ++ l)).length := by
    rw [List.length_append, List.length_append, hhd, hb]
    omega
  rwa [if_pos hin, splice_append hhd hb] at hrule

include hk hr in
theorem At.csumTail (h : At r proto (hd ++ l) s) (hhd : hd.length = off)
    (hkey : r.drops key = true) {diff : UInt32} {flags : CsumFlags} (hoff : ethHlen ≤ off)
    (heven : (off + i) % 2 = 0) (hmax : off + i ≤ 0xffff) (hp : flags.pseudoHdr = true)
    (hz : r.balanced → ¬ (flags.markMangled0 ∧ ¬ flags.markEnforce ∧ load16 l i = 0)) :
    Refines r.stop reliable (orDrop (bpfL4CsumReplace k (off + i) 0 diff flags) key)
      (csumAt key r.ipSummed flags diff i l) (fun _ out s' => At r proto (hd ++ out) s') s := by
  have hlen : off + i + 2 ≤ (hd ++ l).length ↔ i + 2 ≤ l.length := by
    rw [List.length_append]
    omega
  have hrule := h.l4CsumReplace hk hr hkey (off + i) diff (by omega) heven hmax hp
    (by rwa [load16_append_add hhd])
  rw [splice_append_add hhd, load16_append_add hhd] at hrule
  rw [csumAt]
  by_cases hin : i + 2 ≤ l.length
  · rw [if_pos (hlen.mpr hin)] at hrule
    rw [if_pos hin]
    exact hrule.value fun _ _ hs' => hs'
  · rw [if_neg (hlen.not.mpr hin)] at hrule
    rw [if_neg hin]
    exact hrule.value_error

/-! ## Room -/

/-- Removing bytes from the network side. -/
theorem At.remove (h : At r proto data s) {proto' : UInt16} {off n : ℕ} {skb : Skb}
    (he : RemoveEffect s.skb off n skb) (hp : skb.protocol = proto') (hoff : ethHlen ≤ off)
    (heven : off % 2 = 0) (hn : r.balanced → n % 2 = 0) :
    off + n ≤ data.length ∧
      At r proto' (cut data off n) { s with skb := skb, calls := s.calls + 1 } := by
  have hin := he.inBounds
  have hdata := he.data
  rw [h.data] at hin hdata
  exact ⟨hin, h.counters, he.ipSummed.trans h.ipSummed, hp, hdata, fun hb hst =>
    he.balanced hoff heven (hn hb) (h.ipSummed.trans hst) (h.csum hb hst)⟩

/-- Making room on the network side, in a run that does not follow `skb->csum`. -/
theorem At.insert (h : At r proto data s) {proto' : UInt16} {off n : ℕ} {skb : Skb}
    (he : InsertEffect s.skb off n skb) (hp : skb.protocol = proto') (hb : ¬ r.balanced) :
    off ≤ data.length ∧ ∃ gap : List UInt8, gap.length = n ∧
      At r proto' (widen data off gap) { s with skb := skb, calls := s.calls + 1 } := by
  have hin := he.inBounds
  obtain ⟨gap, hgap, hdata⟩ := he.data
  rw [h.data] at hin hdata
  exact ⟨hin, gap, hgap, h.counters, he.ipSummed.trans h.ipSummed, hp, hdata,
    fun hb' => absurd hb' hb⟩

include hk hr in
/-- `bpf_skb_change_proto` to IPv4. -/
theorem At.changeProto4 (h : At r proto data s) (hkey : r.drops key = true)
    (hp : reliable → proto = bpfHtons ethPIpv6)
    (hlen : reliable → ethHlen + ip6Hlen ≤ data.length) :
    Refines r.stop reliable (orDrop (bpfSkbChangeProto k (bpfHtons ethPIp)) key) (.ok ())
      (fun _ _ s' => proto = bpfHtons ethPIpv6 ∧
        At r (bpfHtons ethPIp) (cut data ethHlen (ip6Hlen - ip4Hlen)) s') s := by
  refine refines_orDrop_ok h.counters hkey (fun skb hf => ?_) fun hrel => ?_
  · obtain ⟨hold, hnew, he⟩ := hk.changeProto4 hf
    exact ⟨h.protocol.symm.trans hold,
      (h.remove he hnew (le_refl _) (by decide) fun _ => by decide).2⟩
  · rw [← h.data] at hlen
    exact (hr hrel).changeProto4 (h.protocol.trans (hp hrel)) (hlen hrel)

include hk hr in
/-- `bpf_skb_change_proto` to IPv6. -/
theorem At.changeProto6 (h : At r proto data s) (hkey : r.drops key = true)
    (hp : reliable → proto = bpfHtons ethPIp)
    (hlen : reliable → ethHlen + ip4Hlen ≤ data.length) (hb : ¬ r.balanced) :
    Refines r.stop reliable (orDrop (bpfSkbChangeProto k (bpfHtons ethPIpv6)) key) (.ok ())
      (fun _ _ s' => proto = bpfHtons ethPIp ∧ ∃ gap : List UInt8,
        gap.length = ip6Hlen - ip4Hlen ∧
          At r (bpfHtons ethPIpv6) (widen data ethHlen gap) s') s := by
  refine refines_orDrop_ok h.counters hkey (fun skb hf => ?_) fun hrel => ?_
  · obtain ⟨hold, hnew, he⟩ := hk.changeProto6 hf
    exact ⟨h.protocol.symm.trans hold, (h.insert he hnew hb).2⟩
  · rw [← h.data] at hlen
    exact (hr hrel).changeProto6 (h.protocol.trans (hp hrel)) (hlen hrel)

theorem netBaseLen_ip {skb : Skb} (h : skb.protocol = bpfHtons ethPIp) :
    skb.netBaseLen = some ip4Hlen :=
  if_pos h

theorem netBaseLen_ipv6 {skb : Skb} (h : skb.protocol = bpfHtons ethPIpv6) :
    skb.netBaseLen = some ip6Hlen := by
  rw [Skb.netBaseLen, h, if_neg (by decide), if_pos rfl]

theorem netBaseLen_cases {skb : Skb} {base : ℕ} (h : skb.netBaseLen = some base) :
    base = ip4Hlen ∨ base = ip6Hlen := by
  rw [Skb.netBaseLen] at h
  split at h
  · exact Or.inl (Option.some.inj h).symm
  · split at h
    · exact Or.inr (Option.some.inj h).symm
    · exact absurd h (by simp)

include hk hr in
/-- `bpf_skb_adjust_room` with a negative difference removes bytes behind the network header
that `skb->protocol` calls for.  The programs expect `expected` there; with any other protocol
the call may still succeed, but what it leaves is then of no use to `bpf_skb_change_proto`. -/
theorem At.shrinkRoom (h : At r proto data s) (hkey : r.drops key = true) {n base : ℕ}
    {expected : UInt16} (hn : 0 < n)
    (hbase : ∀ {skb : Skb}, skb.protocol = expected → skb.netBaseLen = some base)
    (hp : reliable → proto = expected) (hparity : r.balanced → n % 2 = 0)
    (hrange : ethHlen + ip4Hlen + n ≤ data.length → ethHlen + base + n ≤ data.length) :
    Refines r.stop reliable (orDrop (bpfSkbAdjustRoom k (-(n : ℤ)) .net roomFlags) key)
      (if ethHlen + base + n ≤ data.length then .ok () else .error key)
      (fun _ _ s' => ∃ data', At r proto data' s' ∧
        (proto = expected → data' = cut data (ethHlen + base) n)) s := by
  refine refines_orDrop h.counters hkey (fun skb hf => ?_) fun hrel hin => ?_
  · obtain ⟨hproto, base', hbase', he⟩ := hk.shrinkRoom hn rfl hf
    have hcases := netBaseLen_cases hbase'
    have heven : (ethHlen + base') % 2 = 0 := by
      rcases hcases with rfl | rfl <;> rfl
    obtain ⟨hin, hat⟩ := h.remove he (hproto.trans h.protocol) (Nat.le_add_right _ _) heven hparity
    refine ⟨hrange ?_, _, hat, fun hexp => ?_⟩
    · have hle : ip4Hlen ≤ base' := by
        rcases hcases with rfl | rfl <;> decide
      omega
    · rw [hbase (h.protocol.trans hexp)] at hbase'
      rw [Option.some.inj hbase']
  · rw [← h.data] at hin
    exact (hr hrel).shrinkRoom (hbase (h.protocol.trans (hp hrel))) hin

include hk hr in
/-- The same for an IPv4 packet, behind its fixed header. -/
theorem At.shrinkRoom4 (h : At r (bpfHtons ethPIp) data s) (hkey : r.drops key = true) {n : ℕ}
    (hn : 0 < n) (hparity : r.balanced → n % 2 = 0)
    (hlen : ethHlen + ip4Hlen + n ≤ data.length) :
    Refines r.stop reliable (orDrop (bpfSkbAdjustRoom k (-(n : ℤ)) .net roomFlags) key) (.ok ())
      (fun _ _ s' => At r (bpfHtons ethPIp) (cut data (ethHlen + ip4Hlen) n) s') s := by
  have hrule := h.shrinkRoom hk hr hkey hn netBaseLen_ip (fun _ => rfl) hparity id
  rw [if_pos hlen] at hrule
  refine hrule.mono fun _ _ s' hs' => ?_
  obtain ⟨data', hat, hdata⟩ := hs'
  rwa [← hdata rfl]

include hk hr in
/-- `bpf_skb_adjust_room` with a positive difference makes room behind the IPv6 header. -/
theorem At.growRoom6 (h : At r (bpfHtons ethPIpv6) data s) (hkey : r.drops key = true) {n : ℕ}
    (hn : 0 < n) (hb : ¬ r.balanced) (hlen : ethHlen + ip6Hlen ≤ data.length) :
    Refines r.stop reliable (orDrop (bpfSkbAdjustRoom k (n : ℤ) .net roomFlags) key) (.ok ())
      (fun _ _ s' => ∃ gap : List UInt8, gap.length = n ∧
        At r (bpfHtons ethPIpv6) (widen data (ethHlen + ip6Hlen) gap) s') s := by
  have hbase := netBaseLen_ipv6 h.protocol
  refine refines_orDrop_ok h.counters hkey (fun skb hf => ?_) fun hrel => ?_
  · obtain ⟨hproto, base, hbase', he⟩ := hk.growRoom hn rfl hf
    rw [hbase] at hbase'
    cases Option.some.inj hbase'
    exact (h.insert he (hproto.trans h.protocol) hb).2
  · rw [← h.data] at hlen
    exact (hr hrel).growRoom hbase hlen

end Rules

end CiliumClat
