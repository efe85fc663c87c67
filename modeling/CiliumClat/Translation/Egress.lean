import CiliumClat.Translation.Edits
import CiliumClat.Datapath.Egress

/-!
# What egress does to a frame

`egressFrame` is the translation of an IPv4 frame as a function on bytes: the IPv6 frame, or the
counter the frame is dropped with.  There is no socket buffer in it, no linear area and no helper
that fails; the three reshapes of the program are one concatenation here.  It shares with the
program whatever has no helper call in it: the header checks, the new headers, the differences.
-/

namespace CiliumClat

open ByteList OnesComplement EarlyExit

/-! ## Options -/

/-- The walk over the options, with `fuel` rounds left, at position `i` of what follows the fixed
header. -/
def sourceRouteWalk (opts : List UInt8) (optlen : ℕ) : ℕ → ℕ → Bool
  | 0, _ => false
  | fuel + 1, i =>
    if i ≥ optlen then false
    else if i + 1 ≤ opts.length then
      if load8 opts i = 0 then false
      else if load8 opts i = 1 then sourceRouteWalk opts optlen fuel (i + 1)
      else if load8 opts i = 131 ∨ load8 opts i = 137 then true
      else if i + 1 ≥ optlen then true
      else if i + 1 + 1 ≤ opts.length then
        if load8 opts (i + 1) < 2 then true
        else sourceRouteWalk opts optlen fuel (i + (load8 opts (i + 1)).toNat)
      else true
    else true

/-- Whether the options hold a source route or are malformed. -/
def hasSourceRoute (opts : List UInt8) (optlen : ℕ) : Bool :=
  if optlen < 4 ∨ optlen > 40 ∨ optlen &&& 3 ≠ 0 then true
  else sourceRouteWalk opts optlen 40 0

/-- What follows the fixed header, without the options. -/
def stripOptions (optlen : ℕ) (l : List UInt8) : Except Counter (List UInt8) :=
  if optlen ≠ 0 then
    if hasSourceRoute l optlen then .error .egressDropSrcroute
    else if optlen ≤ l.length then .ok (l.drop optlen)
    else .error .egressDropHelper
  else .ok l

/-! ## UDP without a checksum -/

/-- The whole chunks of the sum. -/
def fullCsumChunks (k : Kernel) (l4 : List UInt8) (ulen : ℕ) :
    ℕ → ℕ → UInt32 → Option (ℕ × UInt32)
  | 0, off, sum => some (off, sum)
  | rounds + 1, off, sum =>
    if off + csumChunk > ulen then some (off, sum)
    else if off + csumChunk ≤ l4.length then
      fullCsumChunks k l4 ulen rounds (off + csumChunk)
        (k.csumDiff [] (slice l4 off csumChunk) sum)
    else none

/-- The last, partial chunk of the sum. -/
def fullCsumTail (k : Kernel) (l4 : List UInt8) (ulen off : ℕ) (sum : UInt32) : Option UInt16 :=
  if csumTail ulen off ≠ 0 then
    if off + csumTail ulen off ≤ l4.length then
      some (udpFullCsumFold (k.csumDiff [] (slice l4 off (csumTail ulen off) ++
        List.replicate (csumChunk - csumTail ulen off) 0) sum))
    else none
  else some (udpFullCsumFold sum)

/-- The full checksum of `ulen` bytes. -/
def fullCsum (k : Kernel) (l4 : List UInt8) (ulen : ℕ) (seed : UInt32) : Option UInt16 :=
  if ulen > csumChunk * csumMaxChunks then none
  else
    match fullCsumChunks k l4 ulen csumMaxChunks 0 seed with
    | none => none
    | some (off, sum) => fullCsumTail k l4 ulen off sum

/-! ## The transport header -/

/-- UDP. -/
def egressUdpBytes (k : Kernel) (c : Constants) (st : IpSummed) (v : EgressVars)
    (l4 : List UInt8) : Except Counter (List UInt8) := do
  let check ← loadAt .egressDropTruncated 6 2 l4
  if load16 check 0 ≠ 0 then
    csumAt .egressDropHelper st pseudoHdrMangled0 (egressDiff k c v) 6 l4
  else if csumFold (k.csumDiff [] (egressPseudo4 v) 0) = 0 then
    csumAt .egressDropHelper st pseudoHdrEnforce (egressDiff k c v) 6 l4
  else if v.isFrag then
    .error .egressDropFragNoCsum
  else
    match fullCsum k l4 v.l4len (k.csumDiff [] (egressPseudo6 c v ipprotoUdp).bytes 0) with
    | none => .error .egressDropTooBig
    | some full => storeAt .egressDropHelper 6 (le16Bytes full) l4

/-- ICMP. -/
def egressIcmpBytes (k : Kernel) (c : Constants) (st : IpSummed) (v : EgressVars)
    (l4 : List UInt8) : Except Counter (List UInt8) := do
  let tc ← loadAt .egressDropTruncated 0 2 l4
  let t6 ← egressIcmpType (load8 tc 0)
  let l4 ← storeAt .egressDropHelper 0 [t6] l4
  csumAt .egressDropHelper st pseudoHdr (egressIcmpDiff k c v (load8 tc 0) t6 (load8 tc 1)) 2 l4

/-- The transport header of an unfragmented packet or a first fragment. -/
def egressL4Bytes (k : Kernel) (c : Constants) (st : IpSummed) (v : EgressVars)
    (l4 : List UInt8) : Except Counter (List UInt8) :=
  if v.proto = ipprotoTcp then
    csumAt .egressDropHelper st pseudoHdr (egressDiff k c v) 16 l4
  else if v.proto = ipprotoUdp then
    egressUdpBytes k c st v l4
  else if v.proto = ipprotoIcmp then
    egressIcmpBytes k c st v l4
  else
    .ok l4

/-! ## The frame -/

/-- The bytes of the Fragment header, if there is one. -/
def EgressVars.fragBytes (v : EgressVars) : List UInt8 :=
  if v.isFrag then v.fh.bytes else []

/-- The headers in front of the transport header: the MAC addresses of `data`, EtherType, IPv6
header and Fragment header. -/
def egressHeaders (c : Constants) (v : EgressVars) (data : List UInt8) : List UInt8 :=
  data.take 12 ++ (le16Bytes (bpfHtons ethPIpv6) ++ ((v.h6 c).bytes ++ v.fragBytes))

/-- What follows the new headers. -/
def egressPayload (k : Kernel) (c : Constants) (st : IpSummed) (v : EgressVars)
    (l4 : List UInt8) : Except Counter (List UInt8) :=
  if v.first then egressL4Bytes k c st v l4 else .ok l4

/-- **The egress translation** of a frame whose EtherType is IPv4. -/
def egressFrame (k : Kernel) (c : Constants) (st : IpSummed) (data : List UInt8) :
    Except Counter (List UInt8) :=
  if ethHlen + ip4Hlen ≤ data.length then do
    let v ← egressHeader c (Iphdr.load data ethHlen)
    let l4 ← stripOptions (v.ihl - ip4Hlen) (data.drop (ethHlen + ip4Hlen))
    let l4 ← egressPayload k c st v l4
    .ok (egressHeaders c v data ++ l4)
  else
    .error .egressDropTruncated

/-! ## What is accepted -/

/-- The headers `clat_egress` goes on with. -/
structure HeaderAccepted (c : Constants) (ip4 : Iphdr) : Prop where
  version : ip4.version = 4
  ihl : ip4Hlen ≤ (egressVars ip4).ihl
  saddr : ip4.saddr = c.podIp4
  notMcast : isMcast ip4.daddr = false
  totLen : (egressVars ip4).ihl ≤ (bpfNtohs ip4.totLen).toNat
  notFragIcmp : ¬ ((egressVars ip4).isFrag = true ∧ ip4.protocol = ipprotoIcmp)

theorem egressHeader_eq_ok {c : Constants} {ip4 : Iphdr} {v : EgressVars} :
    egressHeader c ip4 = .ok v ↔ HeaderAccepted c ip4 ∧ v = egressVars ip4 := by
  rw [egressHeader]
  simp only [ite_error_eq_ok, Except.ok.injEq]
  constructor
  · rintro ⟨hver, hihl, hsrc, hmc, htot, hfrag, rfl⟩
    exact ⟨⟨not_not.mp hver, not_lt.mp hihl, not_not.mp hsrc, Bool.eq_false_iff.mpr hmc,
      not_lt.mp htot, hfrag⟩, rfl⟩
  · rintro ⟨h, rfl⟩
    exact ⟨not_not.mpr h.version, not_lt.mpr h.ihl, not_not.mpr h.saddr,
      Bool.eq_false_iff.mp h.notMcast, not_lt.mpr h.totLen, h.notFragIcmp, rfl⟩

theorem stripOptions_eq_ok {optlen : ℕ} {l out : List UInt8} :
    stripOptions optlen l = .ok out ↔
      (optlen = 0 ∨ hasSourceRoute l optlen = false) ∧ optlen ≤ l.length ∧
        out = l.drop optlen := by
  rw [stripOptions]
  by_cases hopt : optlen ≠ 0
  · rw [if_pos hopt, ite_error_eq_ok, Bool.not_eq_true]
    refine and_congr (or_iff_right hopt).symm ?_
    by_cases hlen : optlen ≤ l.length
    · rw [if_pos hlen, Except.ok.injEq, and_iff_right hlen, eq_comm]
    · rw [if_neg hlen]
      exact ⟨fun h => (nomatch h), fun h => absurd h.1 hlen⟩
  · rw [if_neg hopt, not_not.mp hopt, Except.ok.injEq, List.drop_zero]
    exact ⟨fun h => ⟨Or.inl rfl, Nat.zero_le _, h.symm⟩, fun h => h.2.2.symm⟩

/-- What follows the IPv4 header of a frame, options included. -/
def payload4 (data : List UInt8) : List UInt8 :=
  data.drop (ethHlen + (egressVars (Iphdr.load data ethHlen)).ihl)

/-- **What is translated, and into what**: the header is accepted, the options are there and hold
no source route, and the new headers are followed by the translated payload. -/
theorem egressFrame_eq_ok {k : Kernel} {c : Constants} {st : IpSummed} {data out : List UInt8} :
    egressFrame k c st data = .ok out ↔
      ethHlen + ip4Hlen ≤ data.length ∧ HeaderAccepted c (Iphdr.load data ethHlen) ∧
      ((egressVars (Iphdr.load data ethHlen)).ihl - ip4Hlen = 0 ∨
        hasSourceRoute (data.drop (ethHlen + ip4Hlen))
          ((egressVars (Iphdr.load data ethHlen)).ihl - ip4Hlen) = false) ∧
      ethHlen + (egressVars (Iphdr.load data ethHlen)).ihl ≤ data.length ∧
      ∃ l4, egressPayload k c st (egressVars (Iphdr.load data ethHlen)) (payload4 data) = .ok l4 ∧
        out = egressHeaders c (egressVars (Iphdr.load data ethHlen)) data ++ l4 := by
  rw [egressFrame]
  by_cases hlen : ethHlen + ip4Hlen ≤ data.length
  swap
  · rw [if_neg hlen]
    exact ⟨fun h => (nomatch h), fun h => absurd h.1 hlen⟩
  rw [if_pos hlen, and_iff_right hlen]
  simp only [bind_eq_ok, egressHeader_eq_ok, stripOptions_eq_ok, Except.ok.injEq]
  constructor
  · rintro ⟨v, ⟨hacc, rfl⟩, l4, ⟨hopt, hlen', rfl⟩, l4', hpay, rfl⟩
    have hihl := hacc.ihl
    rw [List.length_drop] at hlen'
    rw [List.drop_drop, Nat.add_assoc, Nat.add_sub_cancel' hihl] at hpay
    exact ⟨hacc, hopt, by omega, l4', hpay, rfl⟩
  · rintro ⟨hacc, hopt, hlen', l4', hpay, rfl⟩
    have hihl := hacc.ihl
    refine ⟨_, ⟨hacc, rfl⟩, _, ⟨hopt, ?_, rfl⟩, l4', ?_, rfl⟩
    · rw [List.length_drop]
      omega
    · rw [List.drop_drop, Nat.add_assoc, Nat.add_sub_cancel' hihl]
      exact hpay

/-! ## What is changed behind the headers -/

theorem egressIcmpType_eq_ok {t4 t6 : UInt8} :
    egressIcmpType t4 = .ok t6 ↔
      t4 = icmpEcho ∧ t6 = icmpv6EchoRequest ∨ t4 = icmpEchoreply ∧ t6 = icmpv6EchoReply := by
  rw [egressIcmpType]
  by_cases h₁ : t4 = icmpEcho
  · subst h₁
    rw [if_pos rfl, Except.ok.injEq]
    exact ⟨fun h => Or.inl ⟨rfl, h.symm⟩, fun h => h.elim (fun h => h.2.symm)
      fun h => absurd h.1 (by decide)⟩
  rw [if_neg h₁]
  by_cases h₂ : t4 = icmpEchoreply
  · rw [if_pos h₂, Except.ok.injEq]
    exact ⟨fun h => Or.inr ⟨h₂, h.symm⟩, fun h => h.elim (fun h => absurd h.1 h₁)
      fun h => h.2.symm⟩
  · rw [if_neg h₂]
    exact ⟨fun h => (nomatch h), fun h => h.elim (fun h => absurd h.1 h₁)
      fun h => absurd h.1 h₂⟩

theorem egressIcmpBytes_eq_ok {k : Kernel} {c : Constants} {st : IpSummed} {v : EgressVars}
    {l4 out : List UInt8} :
    egressIcmpBytes k c st v l4 = .ok out ↔
      4 ≤ l4.length ∧ ∃ t6, egressIcmpType (load8 l4 0) = .ok t6 ∧
        out = updateCsum st pseudoHdr (egressIcmpDiff k c v (load8 l4 0) t6 (load8 l4 1)) 2
          (splice l4 0 [t6]) := by
  have h₀ : load8 (slice l4 0 2) 0 = load8 l4 0 := load8_slice (by decide)
  have h₁ : load8 (slice l4 0 2) 1 = load8 l4 1 := load8_slice (by decide)
  simp only [egressIcmpBytes, bind_eq_ok, loadAt_eq_ok, storeAt_eq_ok, csumAt_eq_ok]
  constructor
  · rintro ⟨_, ⟨hlen, rfl⟩, t6, ht6, _, ⟨hlen', rfl⟩, hlen'', rfl⟩
    rw [h₀] at ht6
    rw [length_splice hlen'] at hlen''
    rw [h₀, h₁]
    exact ⟨hlen'', t6, ht6, rfl⟩
  · rintro ⟨hlen, t6, ht6, rfl⟩
    have hone : 0 + [t6].length ≤ l4.length :=
      singleton_fits _ (by omega)
    refine ⟨_, ⟨by omega, rfl⟩, t6, by rwa [h₀], _, ⟨hone, rfl⟩, ?_, by rw [h₀, h₁]⟩
    rwa [length_splice hone]

/-- UDP with a checksum. -/
theorem egressUdpBytes_of_ne_zero {k : Kernel} {c : Constants} {st : IpSummed} {v : EgressVars}
    {l4 out : List UInt8} (hcheck : load16 l4 6 ≠ 0) :
    egressUdpBytes k c st v l4 = .ok out ↔
      8 ≤ l4.length ∧ out = updateCsum st pseudoHdrMangled0 (egressDiff k c v) 6 l4 := by
  have h₀ : load16 (slice l4 6 2) 0 = load16 l4 6 := load16_slice (by decide)
  simp only [egressUdpBytes, bind_eq_ok, loadAt_eq_ok]
  constructor
  · rintro ⟨_, ⟨hlen, rfl⟩, h⟩
    rw [h₀, if_pos hcheck, csumAt_eq_ok] at h
    exact h
  · rintro ⟨hlen, rfl⟩
    refine ⟨_, ⟨hlen, rfl⟩, ?_⟩
    rw [h₀, if_pos hcheck, csumAt_eq_ok]
    exact ⟨hlen, rfl⟩

/-- UDP, whatever the checksum: only the checksum field changes. -/
theorem egressUdpBytes_splice {k : Kernel} {c : Constants} {st : IpSummed} {v : EgressVars}
    {l4 out : List UInt8} (h : egressUdpBytes k c st v l4 = .ok out) :
    8 ≤ l4.length ∧ ∃ w : UInt16, out = splice l4 6 (le16Bytes w) := by
  simp only [egressUdpBytes, bind_eq_ok, loadAt_eq_ok] at h
  obtain ⟨_, ⟨hlen, rfl⟩, h⟩ := h
  refine ⟨hlen, ?_⟩
  split at h
  · exact ⟨_, (csumAt_eq_ok.mp h).2⟩
  split at h
  · exact ⟨_, (csumAt_eq_ok.mp h).2⟩
  split at h
  · exact nomatch h
  split at h
  · exact nomatch h
  · exact ⟨_, (storeAt_eq_ok.mp h).2⟩

/-- The positions of the transport header that egress rewrites: the checksum, and the type of an
ICMP message. -/
def egressEdits (v : EgressVars) (i : ℕ) : Prop :=
  v.first = true ∧
    (v.proto = ipprotoTcp ∧ (i = 16 ∨ i = 17) ∨ v.proto = ipprotoUdp ∧ (i = 6 ∨ i = 7) ∨
      v.proto = ipprotoIcmp ∧ (i = 0 ∨ i = 2 ∨ i = 3))

/-- **The payload keeps its length and every byte outside those positions.** -/
theorem egressPayload_sameExcept {k : Kernel} {c : Constants} {st : IpSummed} {v : EgressVars}
    {l4 out : List UInt8} (h : egressPayload k c st v l4 = .ok out) :
    SameExcept (egressEdits v) l4 out := by
  rw [egressPayload] at h
  by_cases hfirst : v.first
  swap
  · rw [if_neg hfirst] at h
    cases h
    exact SameExcept.refl _ _
  rw [if_pos hfirst, egressL4Bytes] at h
  split at h
  · next hp =>
    obtain ⟨hlen, rfl⟩ := csumAt_eq_ok.mp h
    refine SameExcept.splice hlen fun i h₁ h₂ => ⟨hfirst, Or.inl ⟨hp, ?_⟩⟩
    rw [length_le16Bytes] at h₂
    omega
  split at h
  · next hp =>
    obtain ⟨hlen, w, rfl⟩ := egressUdpBytes_splice h
    refine SameExcept.splice hlen fun i h₁ h₂ => ⟨hfirst, Or.inr (Or.inl ⟨hp, ?_⟩)⟩
    rw [length_le16Bytes] at h₂
    omega
  split at h
  · next hp =>
    obtain ⟨hlen, t6, -, rfl⟩ := egressIcmpBytes_eq_ok.mp h
    have hone : 0 + [t6].length ≤ l4.length :=
      singleton_fits _ (by omega)
    refine (SameExcept.splice hone fun i _ h₂ => ?_).trans
      (SameExcept.splice ?_ fun i h₁ h₂ => ?_)
    · rw [List.length_singleton] at h₂
      exact ⟨hfirst, Or.inr (Or.inr ⟨hp, by omega⟩)⟩
    · rwa [length_splice hone]
    · rw [length_le16Bytes] at h₂
      exact ⟨hfirst, Or.inr (Or.inr ⟨hp, by omega⟩)⟩
  · cases h
    exact SameExcept.refl _ _

/-! ## Lengths -/

theorem length_fragBytes (v : EgressVars) :
    v.fragBytes.length = if v.isFrag then fragHlen else 0 := by
  rw [EgressVars.fragBytes]
  split
  · exact FragHdr.length_bytes _
  · rfl

section Layout

variable {hd : List UInt8} {off : ℕ} (hhd : hd.length = off) (h6 : Ipv6hdr)

include hhd

/-- The length of the headers of egress behind `hd`, with the transport bytes `l`. -/
theorem length_append_headers (v : EgressVars) (l : List UInt8) :
    (hd ++ (h6.bytes ++ (v.fragBytes ++ l))).length =
      off + ip6Hlen + (if v.isFrag then fragHlen else 0) + l.length := by
  rw [List.length_append, List.length_append, List.length_append, hhd, Ipv6hdr.length_bytes,
    length_fragBytes, ← Nat.add_assoc, ← Nat.add_assoc]

/-- Behind the headers are the transport bytes. -/
theorem drop_append_headers (v : EgressVars) (l : List UInt8) :
    (hd ++ (h6.bytes ++ (v.fragBytes ++ l))).drop
      (off + ip6Hlen + if v.isFrag then fragHlen else 0) = l := by
  have hlen : (hd ++ (h6.bytes ++ v.fragBytes)).length =
      off + ip6Hlen + if v.isFrag then fragHlen else 0 := by
    rw [List.length_append, List.length_append, hhd, Ipv6hdr.length_bytes, length_fragBytes,
      ← Nat.add_assoc]
  rw [← List.append_assoc h6.bytes, ← List.append_assoc hd, List.drop_left' hlen]

/-- The Fragment header is read back. -/
theorem fragHdr_load_append_headers {v : EgressVars} (hfrag : v.isFrag = true) (l : List UInt8) :
    FragHdr.load (hd ++ (h6.bytes ++ (v.fragBytes ++ l))) (off + ip6Hlen) = v.fh := by
  have hlen : (hd ++ h6.bytes).length = off + ip6Hlen := by
    rw [List.length_append, hhd, Ipv6hdr.length_bytes]
  rw [EgressVars.fragBytes, if_pos hfrag, ← List.append_assoc]
  exact FragHdr.load_append_bytes hlen _ _

end Layout

theorem length_egressHeaders {c : Constants} {v : EgressVars} {data : List UInt8}
    (h : 12 ≤ data.length) : (egressHeaders c v data).length = v.l4off := by
  rw [egressHeaders, List.length_append, List.length_append, List.length_append, List.length_take,
    length_fragBytes, length_le16Bytes, Ipv6hdr.length_bytes, EgressVars.l4off]
  simp only [ethHlen, ip6Hlen]
  omega

end CiliumClat
