import CiliumClat.Properties.Options
import CiliumClat.Properties.ZeroChecksum

/-!
# UDP datagrams that come without a checksum

IPv4 allows a UDP datagram without a checksum and IPv6 does not, so `clat_egress` has to compute
one.  `udp_full_csum` reads the datagram in chunks of 256 bytes, at most 40 of them, and adds what
is left over as one more chunk padded with zeros.  The invariant of its loop is that the sum is the
one of the bytes in front of the offset (`fullCsumChunks_spec`); since its result is never null, it
is the checksum of RFC 1071 (`udp_full_csum_correct`).

Whether a null field means that there is no checksum is another matter.  Under `CHECKSUM_PARTIAL`
the field holds the pseudo-header sum, and the program takes a null field for one where that sum is
zero.  The kernel never stores it so.  A datagram without a checksum whose pseudo-header adds up to
zero is therefore not summed at all (`null_udp_checksum_iff`).
-/

namespace CiliumClat

open ByteList OnesComplement EarlyExit

variable {k : Kernel} {c : Constants} {s : State}

/-! ## The chunks -/

theorem cast_udpFullCsumFold (sum : UInt32) :
    ((udpFullCsumFold sum).toNat : ZMod 65535) = -sum.toNat :=
  (cast_sentChecksum (csumFold sum)).trans (cast_csumFold sum)

/-- One more chunk, padded or not, on top of the bytes in front of it. -/
theorem cast_csumDiff_chunk (hk : k.Lawful) {l : List UInt8} {off : ℕ} (n pad : ℕ)
    (hoff : off % 2 = 0) (hin : off + n ≤ l.length) (hpad : (n + pad) % 4 = 0) {sum : UInt32}
    {x : ZMod 65535} (hsum : (sum.toNat : ZMod 65535) = x + leSum (l.take off)) :
    ((k.csumDiff [] (slice l off n ++ List.replicate pad 0) sum).toNat : ZMod 65535)
      = x + leSum (l.take (off + n)) := by
  have htake : l.take (off + n) = l.take off ++ slice l off n := by
    rw [← slice_zero, slice_add, Nat.zero_add, slice_zero]
  have hlen : (l.take off).length % 2 = 0 := by
    rw [List.length_take, Nat.min_eq_left (by omega)]
    exact hoff
  have hchunk : (slice l off n ++ List.replicate pad 0).length % 4 = 0 := by
    rw [List.length_append, length_slice hin, List.length_replicate]
    exact hpad
  rw [hk.csumDiff _ _ _ rfl hchunk, leSum_append_zeros, htake, leSum_append hlen, hsum, leSum]
  push_cast
  ring

/-- **The loop over the whole chunks.**  As long as the sum is the one of the bytes in front of the
offset, it ends behind the last whole chunk with the sum of the bytes in front of that; it fails
exactly if a whole chunk is not there. -/
theorem fullCsumChunks_spec (hk : k.Lawful) {l4 : List UInt8} {ulen : ℕ} {x : ZMod 65535}
    (rounds : ℕ) : ∀ {off : ℕ} {sum : UInt32}, off % 256 = 0 → off ≤ ulen → off ≤ l4.length →
      ulen < off + 256 * (rounds + 1) → (sum.toNat : ZMod 65535) = x + leSum (l4.take off) →
      if ulen / 256 * 256 ≤ l4.length then
        ∃ sum' : UInt32, fullCsumChunks k l4 ulen rounds off sum = some (ulen / 256 * 256, sum') ∧
          (sum'.toNat : ZMod 65535) = x + leSum (l4.take (ulen / 256 * 256))
      else fullCsumChunks k l4 ulen rounds off sum = none := by
  induction rounds with
  | zero =>
    intro off sum hoff hle hin hend hsum
    have hlast : ulen / 256 * 256 = off := by omega
    rw [hlast, if_pos hin]
    exact ⟨sum, rfl, hsum⟩
  | succ rounds ih =>
    intro off sum hoff hle hin hend hsum
    simp only [fullCsumChunks, csumChunk]
    by_cases hdone : off + 256 > ulen
    · have hlast : ulen / 256 * 256 = off := by omega
      rw [if_pos hdone, hlast, if_pos hin]
      exact ⟨sum, rfl, hsum⟩
    rw [if_neg hdone]
    by_cases hchunk : off + 256 ≤ l4.length
    · rw [if_pos hchunk]
      have hend' : ulen < off + 256 + 256 * (rounds + 1) := by
        rw [Nat.mul_succ, Nat.add_comm (256 * _), ← Nat.add_assoc] at hend
        exact hend
      have hnext := cast_csumDiff_chunk hk 256 0 (by omega) hchunk rfl hsum
      rw [List.replicate_zero, List.append_nil] at hnext
      exact ih (by omega) (by omega) hchunk hend' hnext
    · rw [if_neg hchunk, if_neg (by omega)]

/-- What is left over is what the mask gives. -/
theorem csumTail_eq (ulen : ℕ) : csumTail ulen (ulen / 256 * 256) = ulen % 256 := by
  have hrest : ulen - ulen / 256 * 256 = ulen % 256 := by omega
  rw [csumTail, hrest]
  refine (Nat.and_two_pow_sub_one_eq_mod (ulen % 256) 8).trans ?_
  exact Nat.mod_mod _ _

/-- The last chunk: it is there if all bytes are. -/
theorem fullCsumTail_spec (hk : k.Lawful) {l4 : List UInt8} {ulen : ℕ} {x : ZMod 65535}
    {sum : UInt32} (hin : ulen / 256 * 256 ≤ l4.length)
    (hsum : (sum.toNat : ZMod 65535) = x + leSum (l4.take (ulen / 256 * 256))) :
    if ulen ≤ l4.length then
      ∃ full, fullCsumTail k l4 ulen (ulen / 256 * 256) sum = some full ∧ full ≠ 0 ∧
        (full.toNat : ZMod 65535) = -(x + leSum (l4.take ulen))
    else fullCsumTail k l4 ulen (ulen / 256 * 256) sum = none := by
  have hsplit : ulen / 256 * 256 + ulen % 256 = ulen := Nat.div_add_mod' ulen 256
  simp only [fullCsumTail, csumTail_eq, hsplit, csumChunk]
  by_cases htail : ulen % 256 ≠ 0
  · rw [if_pos htail]
    by_cases hall : ulen ≤ l4.length
    · rw [if_pos hall, if_pos hall]
      have hlast := cast_csumDiff_chunk hk (ulen % 256) (256 - ulen % 256) (by omega)
        (hsplit.trans_le hall) (by omega) hsum
      rw [hsplit] at hlast
      exact ⟨_, rfl, udpFullCsumFold_ne_zero _, by rw [cast_udpFullCsumFold, hlast]⟩
    · rw [if_neg hall, if_neg hall]
  · have hwhole : ulen / 256 * 256 = ulen := by
      rwa [not_not.mp htail, Nat.add_zero] at hsplit
    rw [hwhole] at hin hsum
    rw [if_neg htail, if_pos hin]
    exact ⟨_, rfl, udpFullCsumFold_ne_zero _, by rw [cast_udpFullCsumFold, hsum]⟩

/-- **The sum in chunks is the sum**: up to 10240 bytes, all of which have to be there. -/
theorem fullCsum_eq (hk : k.Lawful) (l4 : List UInt8) (ulen : ℕ) (seed : UInt32) :
    fullCsum k l4 ulen seed = if ulen ≤ 10240 ∧ ulen ≤ l4.length then
      some (sentChecksum (internetChecksum seed (l4.take ulen))) else none := by
  have hcap : csumChunk * csumMaxChunks = 10240 := rfl
  rw [fullCsum, hcap]
  by_cases hbig : ulen > 10240
  · rw [if_pos hbig, if_neg (by omega)]
  rw [if_neg hbig]
  have hcap' : ulen < 0 + 256 * (csumMaxChunks + 1) := by
    show ulen < 10496
    omega
  have hseed : (seed.toNat : ZMod 65535) = seed.toNat + leSum (l4.take 0) := by
    rw [List.take_zero, leSum, Nat.cast_zero, add_zero]
  have hchunks := fullCsumChunks_spec hk csumMaxChunks rfl (Nat.zero_le ulen)
    (Nat.zero_le l4.length) hcap' hseed
  by_cases hin : ulen / 256 * 256 ≤ l4.length
  · rw [if_pos hin] at hchunks
    obtain ⟨sum, hchunks, hsum⟩ := hchunks
    have htail := fullCsumTail_spec hk hin hsum
    rw [hchunks]
    show fullCsumTail k l4 ulen (ulen / 256 * 256) sum = _
    by_cases hall : ulen ≤ l4.length
    · rw [if_pos hall] at htail
      obtain ⟨full, hfull, hne, hcast⟩ := htail
      rw [hfull, if_pos ⟨by omega, hall⟩, Option.some.injEq]
      refine eq_of_cast_eq hne (sentChecksum_ne_zero _) ?_
      rw [hcast, cast_sentChecksum, cast_internetChecksum]
    · rw [if_neg hall] at htail
      rw [htail, if_neg fun h => hall h.2]
  · rw [if_neg hin] at hchunks
    rw [hchunks, if_neg (by omega)]

/-! ## `udp_full_csum` -/

/-- The `n` bytes at `off` are there. -/
def Present (data : List UInt8) (off n : ℕ) : Prop :=
  n = 0 ∨ off + n ≤ data.length

instance (data : List UInt8) (off n : ℕ) : Decidable (Present data off n) :=
  inferInstanceAs (Decidable (_ ∨ _))

theorem present_iff_le_length_drop {data : List UInt8} {off n : ℕ} :
    Present data off n ↔ n ≤ (data.drop off).length := by
  rw [Present, List.length_drop]
  omega

/-- A run of `udp_full_csum` at a position of the packet. -/
theorem exec_udpFullCsum_of_le (hk : k.Lawful) (hr : k.Reliable) {l4off : ℕ}
    (hoff : l4off ≤ s.skb.data.length) (ulen : ℕ) (seed : UInt32) :
    ∃ s', exec (udpFullCsum k l4off ulen seed) s =
        (.ok (fullCsum k (s.skb.data.drop l4off) ulen seed), s') ∧
      s'.skb.data = s.skb.data := by
  have hrun := refines_udpFullCsum hk (fun _ : True => hr)
    (at_startRun_split s Counter.isEgressDrop l4off) (List.length_take_of_le hoff) ulen seed
  obtain ⟨a, s', hexec, -, hab, hs'⟩ := hrun.exists_exec
  rw [hab trivial] at hexec
  exact ⟨s', hexec, hs'.data.trans (List.take_append_drop _ _)⟩

/-- A run of `udp_full_csum` behind the end of the packet: the first load fails, if there is
one. -/
theorem exec_udpFullCsum_of_lt (hk : k.Lawful) {l4off : ℕ} (hoff : s.skb.data.length < l4off)
    (ulen : ℕ) (seed : UInt32) :
    ∃ s', exec (udpFullCsum k l4off ulen seed) s =
        (.ok (fullCsum k [] ulen seed), s') ∧ s'.skb.data = s.skb.data := by
  have hload : ∀ n m : ℕ, exec (bpfSkbLoadBytes k (l4off + n) m) s =
      (.ok none, { s with calls := s.calls + 1 }) := by
    intro n m
    rw [exec_bpfSkbLoadBytes]
    cases hf : k.skbLoadBytes s.calls s.skb (l4off + n) m with
    | none => rfl
    | some bs => exact absurd (hk.loadBytes hf).1 (by omega)
  rw [udpFullCsum, fullCsum]
  by_cases hbig : ulen > csumChunk * csumMaxChunks
  · rw [if_pos hbig, if_pos hbig]
    exact ⟨s, rfl, rfl⟩
  rw [if_neg hbig, if_neg hbig]
  by_cases hdone : 0 + csumChunk > ulen
  · -- no whole chunk
    have hchunks : exec (udpFullCsumChunks k l4off ulen csumMaxChunks 0 seed) s =
        (.ok (some (0, seed)), s) := by
      rw [udpFullCsumChunks, if_pos hdone]
      rfl
    rw [exec_bind_ok hchunks, fullCsumChunks, if_pos hdone]
    show ∃ s', exec (udpFullCsumTail k l4off ulen 0 seed) s =
      (.ok (fullCsumTail k [] ulen 0 seed), s') ∧ _
    rw [udpFullCsumTail, fullCsumTail]
    by_cases htail : csumTail ulen 0 ≠ 0
    · have hout : ¬ 0 + csumTail ulen 0 ≤ ([] : List UInt8).length := by
        rw [List.length_nil]
        omega
      rw [if_pos htail, if_pos htail, exec_bind_ok (hload 0 _), if_neg hout]
      exact ⟨_, rfl, rfl⟩
    · rw [if_neg htail, if_neg htail]
      exact ⟨_, rfl, rfl⟩
  · have hchunks : exec (udpFullCsumChunks k l4off ulen csumMaxChunks 0 seed) s =
        (.ok none, { s with calls := s.calls + 1 }) := by
      rw [udpFullCsumChunks, if_neg hdone, exec_bind_ok (hload 0 _)]
      rfl
    rw [exec_bind_ok hchunks, fullCsumChunks, if_neg hdone, if_neg (by decide)]
    exact ⟨_, rfl, rfl⟩

/-- **What `udp_full_csum` computes**, wherever it is asked to start. -/
theorem exec_udpFullCsum (hk : k.Lawful) (hr : k.Reliable) (s : State) (l4off ulen : ℕ)
    (seed : UInt32) :
    ∃ s', exec (udpFullCsum k l4off ulen seed) s =
        (.ok (if ulen ≤ 10240 ∧ Present s.skb.data l4off ulen then
            some (sentChecksum (internetChecksum seed (slice s.skb.data l4off ulen)))
          else none), s') ∧
      s'.skb.data = s.skb.data := by
  have hfull := fullCsum_eq hk (s.skb.data.drop l4off) ulen seed
  simp only [← present_iff_le_length_drop] at hfull
  rw [slice, ← hfull]
  rcases Nat.lt_or_ge s.skb.data.length l4off with hlt | hle
  · rw [List.drop_of_length_le hlt.le]
    exact exec_udpFullCsum_of_lt hk hlt ulen seed
  · exact exec_udpFullCsum_of_le hk hr hle ulen seed

/-! ## Null checksums on egress -/

section Null

variable {st : IpSummed} {p : Iphdr} {l4 out : List UInt8}

/-- **A null checksum in an unfragmented datagram**: it is taken for a partial checksum and
updated, or the checksum is computed. -/
theorem egressPayload_of_null (hudp : p.protocol = ipprotoUdp) (hfrag : ¬ p.IsFragment)
    (hnull : load16 l4 6 = 0) :
    egressPayload k c st (egressVars p) l4 = .ok out ↔ 8 ≤ l4.length ∧
      if csumFold (k.csumDiff [] (egressPseudo4 (egressVars p)) 0) = 0 then
        out = updateCsum st pseudoHdrEnforce (egressDiff k c (egressVars p)) 6 l4
      else
        ∃ full, fullCsum k l4 (egressVars p).l4len
            (k.csumDiff [] (egressPseudo6 c (egressVars p) ipprotoUdp).bytes 0) = some full ∧
          out = splice l4 6 (le16Bytes full) := by
  have hproto : (egressVars p).proto = ipprotoUdp := hudp
  have hoff : p.offset = 0 := not_not.mp fun hoff => hfrag (Or.inr hoff)
  have hread : load16 (slice l4 6 2) 0 = load16 l4 6 := load16_slice (by decide)
  rw [egressPayload, if_pos (egressVars_first.mpr hoff), egressL4Bytes, hproto,
    if_neg (by decide), if_pos rfl]
  simp only [egressUdpBytes, bind_eq_ok, loadAt_eq_ok]
  constructor
  · rintro ⟨_, ⟨hlen, rfl⟩, h⟩
    rw [hread, if_neg (not_not.mpr hnull)] at h
    refine ⟨hlen, ?_⟩
    split at h
    · next hguess =>
      rw [if_pos hguess]
      exact (csumAt_eq_ok.mp h).2
    next hguess =>
    rw [if_neg (egressVars_isFrag.not.mpr hfrag)] at h
    rw [if_neg hguess]
    split at h
    · cases h
    · next full hfull => exact ⟨full, hfull, (storeAt_eq_ok.mp h).2⟩
  · rintro ⟨hlen, h⟩
    refine ⟨_, ⟨hlen, rfl⟩, ?_⟩
    rw [hread, if_neg (not_not.mpr hnull)]
    split at h
    · next hguess =>
      rw [if_pos hguess]
      exact csumAt_eq_ok.mpr ⟨hlen, h⟩
    · next hguess =>
      obtain ⟨full, hfull, rfl⟩ := h
      rw [if_neg hguess, if_neg (egressVars_isFrag.not.mpr hfrag), hfull]
      exact storeAt_eq_ok.mpr ⟨hlen, rfl⟩

/-- `clat_egress` has to compute the checksum of the datagram in the frame `data`. -/
structure NeedsFullCsum (k : Kernel) (data : List UInt8) : Prop where
  udp : (Iphdr.load data ethHlen).protocol = ipprotoUdp
  unfragmented : ¬ (Iphdr.load data ethHlen).IsFragment
  null : load16 (transportBytes4 data) 6 = 0
  absent : csumFold (k.csumDiff [] (egressPseudo4 (egressVars (Iphdr.load data ethHlen))) 0) ≠ 0

/-- A datagram whose checksum cannot be computed is dropped. -/
theorem NeedsFullCsum.shot (hk : k.Lawful) (c : Constants) (h : NeedsFullCsum k s.skb.data)
    (hipv4 : HasEtherType s.skb.data ethPIp)
    (hbad : 10240 < (egressVars (Iphdr.load s.skb.data ethHlen)).l4len ∨
      (transportBytes4 s.skb.data).length < (egressVars (Iphdr.load s.skb.data ethHlen)).l4len) :
    (clatEgress k c s).1 = .shot := by
  rcases clatEgress_cases (c := c) hk hipv4 with ⟨out, hout, -⟩ | ⟨key, -, hdrop, -⟩
  · obtain ⟨-, -, l4, hl4, -⟩ := egressFrame_parts hout
    obtain ⟨-, hfull⟩ := (egressPayload_of_null h.udp h.unfragmented h.null).mp hl4
    rw [if_neg h.absent, fullCsum_eq hk, if_neg (by omega)] at hfull
    obtain ⟨full, hfull, -⟩ := hfull
    exact nomatch hfull
  · exact hdrop.verdict

end Null

/-- **The sum in chunks is the plain one.**  For up to 10240 bytes that are there, `udp_full_csum`
returns the checksum of RFC 1071 over the seed and exactly these bytes, in the spelling that is not
null; for more bytes, or if one is missing, it fails, and `clat_egress` drops the packet. -/
theorem udp_full_csum_correct (hk : k.Lawful) (hr : k.Reliable) (c : Constants) (s : State)
    (l4off ulen : ℕ) (seed : UInt32) :
    (ulen ≤ 10240 → Present s.skb.data l4off ulen →
      ∃ s', exec (udpFullCsum k l4off ulen seed) s =
          (.ok (some (sentChecksum (internetChecksum seed (slice s.skb.data l4off ulen)))), s') ∧
        s'.skb.data = s.skb.data) ∧
    (10240 < ulen ∨ ¬ Present s.skb.data l4off ulen →
      ∃ s', exec (udpFullCsum k l4off ulen seed) s = (.ok none, s')) ∧
    (HasEtherType s.skb.data ethPIp → NeedsFullCsum k s.skb.data →
      10240 < (egressVars (Iphdr.load s.skb.data ethHlen)).l4len ∨
        (transportBytes4 s.skb.data).length
          < (egressVars (Iphdr.load s.skb.data ethHlen)).l4len →
      (clatEgress k c s).1 = .shot) := by
  obtain ⟨s', hexec, hdata⟩ := exec_udpFullCsum hk hr s l4off ulen seed
  refine ⟨fun hle hin => ⟨s', ?_, hdata⟩, fun hbad => ⟨s', ?_⟩,
    fun hipv4 hneeds hbad => hneeds.shot hk c hipv4 hbad⟩
  · rw [hexec, if_pos ⟨hle, hin⟩]
  · rw [hexec, if_neg fun hand => hbad.elim (fun hlt => absurd hand.1 (by omega))
      fun hout => hout hand.2]

/-- Eleven bytes behind the headers of a frame, and one byte more than there is. -/
theorem udp_full_csum_correct_odd :
    let s := testState (testFrame4 0 17 [0, 53, 0, 53, 0, 11, 0, 0, 1, 2, 3]) ethPIp
    (∃ s', exec (udpFullCsum .reference 34 11 0x1234) s = (.ok (some 0x76c7), s')) ∧
      ∃ s', exec (udpFullCsum .reference 34 12 0x1234) s = (.ok none, s') := by
  intro s
  have hk := Kernel.reference_lawful
  have hr := Kernel.reference_reliable
  have hsum : sentChecksum (internetChecksum 0x1234 (slice s.skb.data 34 11)) = 0x76c7 := by
    decide +kernel
  obtain ⟨s', hexec, -⟩ := (udp_full_csum_correct hk hr testConstants s 34 11 0x1234).1
    (by decide) (by decide +kernel)
  rw [hsum] at hexec
  exact ⟨⟨s', hexec⟩, (udp_full_csum_correct hk hr testConstants s 34 12 0x1234).2.1
    (Or.inr (by decide +kernel))⟩

/-! ## The checksum of a datagram without one -/

/-- Ones'-complement addition does not lose a sum: words that are not all zero do not add up to the
zero word. -/
def Kernel.KeepsSums (k : Kernel) : Prop :=
  ∀ l : List UInt8, l.length % 4 = 0 → 0 < leSum l → k.csumDiff [] l 0 ≠ 0

theorem Kernel.reference_keepsSums : Kernel.reference.KeepsSums := by
  intro l hl hpos hzero
  have hfold : (fold16 (csumPartial l 0)).toUInt32 = 0 := hzero
  have hfold' : fold16 (csumPartial l 0) = 0 := by
    rw [← UInt16.toNat_inj, ← UInt16.toNat_toUInt32, hfold]
    rfl
  exact csumPartial_ne_zero l hl 0 (Or.inr hpos) ((fold16_eq_zero_iff _).mp hfold')

section Null

variable {st : IpSummed} {p : Iphdr} {l4 out : List UInt8}

/-- The pseudo-header by which a null checksum is judged is the one of the packet. -/
theorem leSum_egressPseudo4 (hudp : p.protocol = ipprotoUdp) :
    leSum (egressPseudo4 (egressVars p)) = leSum (pseudo4 p (egressVars p).l4len) := by
  have hproto : le32Bytes (bpfHtonl ipprotoUdp.toUInt32) = [0, 0] ++ [0, ipprotoUdp] := by decide
  have hsaddr : (egressVars p).saddr = p.saddr := rfl
  have hdaddr : (egressVars p).daddr = p.daddr := rfl
  rw [egressPseudo4, pseudo4, hudp, hproto, le32Bytes_bswap32_ofNat, hsaddr, hdaddr,
    leSum_append (by simp), leSum_append (by simp), leSum_append (by simp),
    leSum_append (l := le32Bytes p.saddr) (by simp),
    leSum_append (l := le32Bytes p.daddr) (by simp), leSum_append (l := [0, ipprotoUdp]) (by simp),
    leSum_be32Bytes (egressVars_l4len_lt p)]
  rfl

/-- **A null checksum is taken for a partial one** exactly if the pseudo-header adds up to zero. -/
theorem csumFold_egressPseudo4_eq_zero_iff (hk : k.Lawful) (hsums : k.KeepsSums)
    (hudp : p.protocol = ipprotoUdp) :
    csumFold (k.csumDiff [] (egressPseudo4 (egressVars p)) 0) = 0 ↔
      sum16 (pseudo4 p (egressVars p).l4len) % 65535 = 0 := by
  have hlen : (egressPseudo4 (egressVars p)).length % 4 = 0 := by simp [egressPseudo4]
  have hpos : 0 < leSum (egressPseudo4 (egressVars p)) := by
    have hproto : leSum (le32Bytes (bpfHtonl ipprotoUdp.toUInt32)) = 4352 := by decide
    rw [egressPseudo4, leSum_append (by simp), leSum_append (by simp), leSum_append (by simp),
      hproto]
    omega
  have hne : 0 < (k.csumDiff [] (egressPseudo4 (egressVars p)) 0).toNat := by
    refine Nat.pos_of_ne_zero fun hzero => hsums _ hlen hpos ?_
    rw [← UInt32.toNat_inj, hzero]
    rfl
  rw [csumFold_eq_zero_iff, and_iff_right hne, sum16_mod_eq_zero_iff, ← Nat.dvd_iff_mod_eq_zero,
    ← ZMod.natCast_eq_zero_iff, hk.csumDiff _ _ _ rfl hlen, leSum_egressPseudo4 hudp, leSum,
    UInt32.toNat_zero, Nat.cast_zero, zero_add, sub_zero]

/-- What is computed is right. -/
theorem cast_leSum_fullCsum (hk : k.Lawful) (hudp : p.protocol = ipprotoUdp)
    (hfrag : ¬ p.IsFragment) (hlen : l4.length = (egressVars p).l4len) (hfits : 8 ≤ l4.length)
    (hnull : load16 l4 6 = 0) {full : UInt16}
    (hfull : fullCsum k l4 (egressVars p).l4len
      (k.csumDiff [] (egressPseudo6 c (egressVars p) ipprotoUdp).bytes 0) = some full) :
    (leSum (pseudo6 ((egressVars p).h6 c) (egressVars p).l4len) : ZMod 65535)
      + leSum (splice l4 6 (le16Bytes full)) = 0 := by
  have hnh : ((egressVars p).h6 c).nexthdr = ipprotoUdp := by
    rw [h6_nexthdr_of_not_isFragment hfrag, hudp]
    rfl
  have hp6 : (egressPseudo6 c (egressVars p) ipprotoUdp).bytes
      = pseudo6 ((egressVars p).h6 c) (egressVars p).l4len := by
    rw [pseudo6, hnh]
    exact pseudo6_bytes _ _ _ _
  have hwhole : l4.take (egressVars p).l4len = l4 := List.take_of_length_le hlen.le
  rw [fullCsum_eq hk, hwhole] at hfull
  split at hfull
  swap
  · cases hfull
  cases hfull
  rw [cast_leSum_splice16 (by decide) hfits, hnull, cast_sentChecksum, cast_internetChecksum,
    hk.csumDiff _ _ _ rfl (by simp), hp6, leSum, UInt32.toNat_zero, UInt16.toNat_zero]
  push_cast
  ring

/-- What is updated is right only if it was right before. -/
theorem cast_leSum_guessed (hk : k.Lawful) (hst : st ≠ .checksumPartial)
    (hudp : p.protocol = ipprotoUdp) (hfrag : ¬ p.IsFragment) (hfits : 8 ≤ l4.length) :
    (leSum (pseudo6 ((egressVars p).h6 c) (egressVars p).l4len) : ZMod 65535)
        + leSum (updateCsum st pseudoHdrEnforce (egressDiff k c (egressVars p)) 6 l4)
      = leSum (pseudo4 p (egressVars p).l4len) + leSum l4 := by
  have hnh : ((egressVars p).h6 c).nexthdr = p.protocol := by
    rw [h6_nexthdr_of_not_isFragment hfrag, hudp]
    rfl
  have hsaddr : (egressVars p).saddr = p.saddr := rfl
  have hdaddr : (egressVars p).daddr = p.daddr := rfl
  rw [cast_leSum_updateCsum (by decide) hfits rfl fun hz => hz.2.1 rfl, cast_egressDiff hk,
    cast_leSum_pseudo6 _ (egressVars_l4len_lt p), cast_leSum_pseudo4, IpSummed.sign_of_ne hst, hnh,
    hsaddr, hdaddr]
  ring

end Null

/-- An unfragmented UDP datagram of the pod without a checksum, all of which is there: the total
length and the UDP length count its bytes, at most 10240 behind the header, and the destination is
neither multicast nor broadcast. -/
structure NullDatagram (c : Constants) (data : List UInt8) : Prop where
  etherType : HasEtherType data ethPIp
  version : (Iphdr.load data ethHlen).version = 4
  headerLength : ip4Hlen ≤ (Iphdr.load data ethHlen).headerLength
  consistent : LengthConsistent4 data
  unfragmented : ¬ (Iphdr.load data ethHlen).IsFragment
  saddr : (Iphdr.load data ethHlen).saddr = c.podIp4
  notMulticast : ¬ IsMulticast4 (Iphdr.load data ethHlen).daddr
  notBroadcast : ¬ IsLimitedBroadcast (Iphdr.load data ethHlen).daddr
  udp : (Iphdr.load data ethHlen).protocol = ipprotoUdp
  udpLength : load16 (transportBytes4 data) 4 =
    bpfHtons (UInt16.ofNat (transportBytes4 data).length)
  header : 8 ≤ (transportBytes4 data).length
  small : (transportBytes4 data).length ≤ 10240
  null : load16 (transportBytes4 data) 6 = 0

instance (c : Constants) (data : List UInt8) : Decidable (NullDatagram c data) :=
  decidable_of_iff
    (HasEtherType data ethPIp ∧ (Iphdr.load data ethHlen).version = 4 ∧
      ip4Hlen ≤ (Iphdr.load data ethHlen).headerLength ∧ LengthConsistent4 data ∧
      ¬ (Iphdr.load data ethHlen).IsFragment ∧ (Iphdr.load data ethHlen).saddr = c.podIp4 ∧
      ¬ IsMulticast4 (Iphdr.load data ethHlen).daddr ∧
      ¬ IsLimitedBroadcast (Iphdr.load data ethHlen).daddr ∧
      (Iphdr.load data ethHlen).protocol = ipprotoUdp ∧
      load16 (transportBytes4 data) 4 = bpfHtons (UInt16.ofNat (transportBytes4 data).length) ∧
      8 ≤ (transportBytes4 data).length ∧ (transportBytes4 data).length ≤ 10240 ∧
      load16 (transportBytes4 data) 6 = 0)
    ⟨fun ⟨h₁, h₂, h₃, h₄, h₅, h₆, h₇, h₈, h₉, h₁₀, h₁₁, h₁₂, h₁₃⟩ =>
        ⟨h₁, h₂, h₃, h₄, h₅, h₆, h₇, h₈, h₉, h₁₀, h₁₁, h₁₂, h₁₃⟩,
      fun h => ⟨h.1, h.2, h.3, h.4, h.5, h.6, h.7, h.8, h.9, h.10, h.11, h.12, h.13⟩⟩

namespace NullDatagram

variable {data : List UInt8}

theorem totLen (h : NullDatagram c data) :
    (Iphdr.load data ethHlen).headerLength ≤ (Iphdr.load data ethHlen).length := by
  have hheader := h.header
  rw [h.consistent.length_transportBytes4, egressVars_l4len] at hheader
  omega

theorem accepted (h : NullDatagram c data) : HeaderAccepted c (Iphdr.load data ethHlen) where
  version := h.version
  ihl := by
    rw [egressVars_ihl]
    exact h.headerLength
  saddr := h.saddr
  notMcast := isMcast_eq_false_of_not h.notMulticast h.notBroadcast
  totLen := by
    rw [egressVars_ihl]
    exact h.totLen
  notFragIcmp := fun hfrag => h.unfragmented (egressVars_isFrag.mp hfrag.1)

/-- What egress makes of the datagram, if it accepts the options. -/
theorem frame_iff (h : NullDatagram c data) {st : IpSummed} {out : List UInt8} :
    egressFrame k c st data = .ok out ↔ OptionsAccepted data ∧
      ∃ l4, egressPayload k c st (egressVars (Iphdr.load data ethHlen)) (transportBytes4 data)
          = .ok l4 ∧
        out = egressHeaders c (egressVars (Iphdr.load data ethHlen)) data ++ l4 := by
  have hcons : 14 + (Iphdr.load data ethHlen).length = data.length := h.consistent
  have htot := h.totLen
  have hcomplete : ethHlen + (Iphdr.load data ethHlen).headerLength ≤ data.length :=
    (Nat.add_le_add_left htot _).trans (Nat.le_of_eq hcons)
  have hlen : ethHlen + ip4Hlen ≤ data.length :=
    (Nat.add_le_add_left h.headerLength _).trans hcomplete
  rw [egressFrame_eq_ok, payload4, egressVars_ihl]
  constructor
  · rintro ⟨-, -, hopt, -, hrest⟩
    exact ⟨hopt, hrest⟩
  · rintro ⟨hopt, hrest⟩
    exact ⟨hlen, h.accepted, hopt, hcomplete, hrest⟩

/-- **What becomes of the datagram**: it gets a checksum; and unless the pseudo-header adds up to
zero, pseudo-header and datagram then do. -/
theorem payload (hk : k.Lawful) (hsums : k.KeepsSums) {st : IpSummed}
    (hst : st ≠ .checksumPartial) (h : NullDatagram c data) :
    ∃ l4, egressPayload k c st (egressVars (Iphdr.load data ethHlen)) (transportBytes4 data)
        = .ok l4 ∧ l4.length = (transportBytes4 data).length ∧ load16 l4 6 ≠ 0 ∧
      (leSum (pseudo6 ((egressVars (Iphdr.load data ethHlen)).h6 c) l4.length) : ZMod 65535)
          + leSum l4 =
        if sum16 (pseudo4 (Iphdr.load data ethHlen) (transportBytes4 data).length) % 65535 = 0
        then (leSum (transportBytes4 data) : ZMod 65535) else 0 := by
  have hlen := h.consistent.length_transportBytes4
  have hguess := csumFold_egressPseudo4_eq_zero_iff hk hsums h.udp
  rw [← hlen] at hguess
  by_cases hzero : sum16 (pseudo4 (Iphdr.load data ethHlen) (transportBytes4 data).length) % 65535
      = 0
  · -- the null checksum is taken for a partial one
    rw [if_pos hzero]
    let out := updateCsum st pseudoHdrEnforce
      (egressDiff k c (egressVars (Iphdr.load data ethHlen))) 6 (transportBytes4 data)
    have hpay : egressPayload k c st (egressVars (Iphdr.load data ethHlen)) (transportBytes4 data)
        = .ok out :=
      (egressPayload_of_null h.udp h.unfragmented h.null).mpr
        ⟨h.header, by rw [if_pos (hguess.mpr hzero)]⟩
    have hsame : out.length = (transportBytes4 data).length := length_updateCsum h.header
    have hp4 : (leSum (pseudo4 (Iphdr.load data ethHlen) (transportBytes4 data).length)
        : ZMod 65535) = 0 := (sum16_mod_eq_zero_iff _).mp hzero
    refine ⟨out, hpay, hsame, ?_, ?_⟩
    · refine (load16_splice_self h.header _).trans_ne ?_
      exact l4CsumField_ne_zero rfl (Or.inl rfl) _
    · rw [hsame, hlen, cast_leSum_guessed hk hst h.udp h.unfragmented h.header, ← hlen, hp4,
        zero_add]
  · rw [if_neg hzero]
    have hwhole := fullCsum_eq hk (transportBytes4 data)
      (egressVars (Iphdr.load data ethHlen)).l4len
      (k.csumDiff [] (egressPseudo6 c (egressVars (Iphdr.load data ethHlen)) ipprotoUdp).bytes 0)
    rw [if_pos ⟨hlen ▸ h.small, hlen.ge⟩] at hwhole
    obtain ⟨full, hfull⟩ := (⟨_, hwhole⟩ : ∃ full, fullCsum k _ _ _ = some full)
    refine ⟨splice (transportBytes4 data) 6 (le16Bytes full),
      (egressPayload_of_null h.udp h.unfragmented h.null).mpr ⟨h.header, ?_⟩,
      length_splice h.header, ?_, ?_⟩
    · rw [if_neg (hguess.not.mpr hzero)]
      exact ⟨full, hfull, rfl⟩
    · rw [load16_splice_self h.header]
      exact fullCsum_ne_zero hfull
    · rw [length_splice h.header, hlen]
      exact cast_leSum_fullCsum hk h.udp h.unfragmented hlen h.header h.null hfull

end NullDatagram

theorem transportBytes6_egressHeaders {data : List UInt8} (hmac : 12 ≤ data.length)
    {v : EgressVars} (hfrag : v.isFrag = false) (l4 : List UInt8) :
    transportBytes6 (egressHeaders c v data ++ l4) = l4 := by
  have hlen : (egressHeaders c v data).length = ethHlen + ip6Hlen := by
    rw [length_egressHeaders hmac, EgressVars.l4off, hfrag]
    rfl
  exact List.drop_left' hlen

/-- **UDP datagrams without a checksum.**  The datagram is translated, with a checksum that is not
null and verifies, exactly if its options are accepted and its IPv4 pseudo-header does not add up to
zero, or the datagram itself does. -/
theorem null_udp_checksum_iff (hk : k.Lawful) (hsums : k.KeepsSums) (hn : NoFault k s ethPIp)
    (hst : s.skb.ipSummed = .checksumNone) (h : NullDatagram c s.skb.data) :
    ((clatEgress k c s).1 = .ok ∧
      load16 (transportBytes6 (clatEgress k c s).2.skb.data) 6 ≠ 0 ∧
      residual6 (clatEgress k c s).2.skb.data % 65535 = 0) ↔
    OptionsAccepted s.skb.data ∧
      (sum16 (pseudo4 (Iphdr.load s.skb.data ethHlen) (transportBytes4 s.skb.data).length) % 65535
          = 0 →
        sum16 (transportBytes4 s.skb.data) % 65535 = 0) := by
  have hst' : s.skb.ipSummed ≠ .checksumPartial := by
    rw [hst]
    decide
  obtain ⟨l4, hpay, -, hne, hsum⟩ := h.payload hk hsums hst'
  have hisFrag := egressVars_isFrag_eq_false h.unfragmented
  have hmac : 12 ≤ s.skb.data.length := le_trans (by decide) h.etherType.1
  -- the sum of the new packet, whatever the options
  have hverifies : residual6 (egressHeaders c (egressVars (Iphdr.load s.skb.data ethHlen))
      s.skb.data ++ l4) % 65535 = 0 ↔
      (sum16 (pseudo4 (Iphdr.load s.skb.data ethHlen) (transportBytes4 s.skb.data).length) % 65535
          = 0 →
        sum16 (transportBytes4 s.skb.data) % 65535 = 0) := by
    rw [← Nat.dvd_iff_mod_eq_zero, ← ZMod.natCast_eq_zero_iff, cast_residual6_egress hmac hisFrag,
      isUnit_256.mul_right_eq_zero, hsum]
    split
    · next hzero =>
      rw [sum16_mod_eq_zero_iff (transportBytes4 _)]
      exact ⟨fun hl4 _ => hl4, fun hl4 => hl4 hzero⟩
    · next hnz => exact iff_of_true rfl fun hzero => absurd hzero hnz
  constructor
  · rintro ⟨hok, -, hres⟩
    have hout := EgressTranslates.out hk ⟨h.etherType, hok⟩
    obtain ⟨hopt, l4', hpay', hdata⟩ := h.frame_iff.mp hout
    cases Except.ok.inj (hpay.symm.trans hpay')
    rw [hdata] at hres
    exact ⟨hopt, hverifies.mp hres⟩
  · rintro ⟨hopt, hsums'⟩
    obtain ⟨hok, hdata⟩ := clatEgress_of_frame hk hn h.etherType
      (h.frame_iff.mpr ⟨hopt, l4, hpay, rfl⟩)
    rw [hdata, transportBytes6_egressHeaders hmac hisFrag]
    exact ⟨hok, hne, hverifies.mpr hsums'⟩

/-- A UDP datagram of the packet tests to `daddr` without a checksum. -/
def testNullFrame (daddr : List UInt8) : List UInt8 :=
  let h4 : Iphdr := { Iphdr.load (testFrame4 0 17 (List.replicate 8 0)) ethHlen with
    daddr := load32 daddr 0 }
  testMacs ++ (le16Bytes (bpfHtons ethPIp) ++ (h4.bytes ++ [0, 53, 0, 53, 0, 8, 0, 0]))

/-- A datagram to `198.51.100.10` gets its checksum. -/
theorem null_udp_checksum_iff_datagram :
    let s := testState (testNullFrame [198, 51, 100, 10]) ethPIp
    NullDatagram testConstants s.skb.data ∧
      (clatEgress .reference testConstants s).1 = .ok ∧
      load16 (transportBytes6 (clatEgress .reference testConstants s).2.skb.data) 6 ≠ 0 ∧
      residual6 (clatEgress .reference testConstants s).2.skb.data % 65535 = 0 := by
  intro s
  have hnull : NullDatagram testConstants s.skb.data := by decide +kernel
  have hiff := null_udp_checksum_iff Kernel.reference_lawful Kernel.reference_keepsSums
    (s := s) ⟨Kernel.reference_reliable, rfl⟩ rfl hnull
  exact ⟨hnull, hiff.mpr ⟨by decide +kernel, by decide +kernel⟩⟩

/-- A datagram to `10.1.53.227` does not: addresses, protocol and length add up to zero, and it
leaves with a checksum that does not verify. -/
theorem null_udp_checksum_wrong :
    let s := testState (testNullFrame [10, 1, 53, 227]) ethPIp
    NullDatagram testConstants s.skb.data ∧ s.skb.ipSummed = .checksumNone ∧
      (clatEgress .reference testConstants s).1 = .ok ∧
      residual6 (clatEgress .reference testConstants s).2.skb.data % 65535 ≠ 0 := by
  intro s
  exact ⟨by decide +kernel, rfl, by decide +kernel, by decide +kernel⟩

end CiliumClat
