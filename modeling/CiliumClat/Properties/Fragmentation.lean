import CiliumClat.Library.Reassembly
import CiliumClat.Properties.RoundTrip

/-!
# Fragments

The programs keep no state, so each fragment of a datagram is translated on its own, and only the
first one holds the checksum that has to change.  Nothing is lost by that: the receiver that puts
the translated fragments together again, by what their own headers say, gets the transport bytes
that the translation of the whole datagram has.

A frame is seen as a fragment by `fragment4` and `fragment6`.  Both translations are then one
`Fragment.edit`: the first fragment has its checksum updated, all others keep their bytes, and
position and flag are kept.  The update does not depend on the length of the fragment, which is
why it may be made in the first fragment instead of the whole (`updateCsum_append`).
-/

namespace CiliumClat

open ByteList OnesComplement Reassembly

variable {k : Kernel} {c : Constants} {s : State}

/-! ## Frames as fragments -/

/-- What an IPv4 frame says about its place in a datagram. -/
def fragment4 (data : List UInt8) : Fragment ℕ UInt8 where
  ident := (Iphdr.load data ethHlen).ident
  offset := 8 * (Iphdr.load data ethHlen).offset
  more := (Iphdr.load data ethHlen).more
  bytes := (transportBytes4 data).take
    ((Iphdr.load data ethHlen).length - (Iphdr.load data ethHlen).headerLength)

/-- What an IPv6 frame says about its place in a datagram: without a Fragment header it is all of
it. -/
def fragment6 (data : List UInt8) : Fragment ℕ UInt8 where
  ident := if (Ipv6hdr.load data ethHlen).nexthdr = ipprotoFragment then
    (FragHdr.load data (ethHlen + ip6Hlen)).ident else 0
  offset := 8 * offset6 data
  more := if (Ipv6hdr.load data ethHlen).nexthdr = ipprotoFragment then
    (FragHdr.load data (ethHlen + ip6Hlen)).more else false
  bytes := (payload6 data).take (l4Length6 data)

theorem LengthConsistent4.fragment4_bytes {data : List UInt8} (h : LengthConsistent4 data) :
    (fragment4 data).bytes = transportBytes4 data := by
  have h' : 14 + (Iphdr.load data ethHlen).length = data.length := h
  refine List.take_of_length_le ?_
  rw [transportBytes4, List.length_drop]
  show data.length - (14 + (Iphdr.load data ethHlen).headerLength) ≤ _
  omega

theorem LengthConsistent6.fragment6_bytes {data : List UInt8} (h : LengthConsistent6 data) :
    (fragment6 data).bytes = payload6 data :=
  List.take_of_length_le (Nat.le_of_eq h.length_payload6)

/-! ## The update of a checksum -/

section Update

variable {st st' : IpSummed} {protocol : UInt8} {d : UInt32} {l4 : List UInt8}

theorem updateTransport_congr (h : st' = .checksumPartial ↔ st = .checksumPartial) :
    updateTransport st' protocol d l4 = updateTransport st protocol d l4 := by
  have hdiff : ∀ pseudo old, protoCsumReplaceByDiff st' pseudo old d
      = protoCsumReplaceByDiff st pseudo old d := by
    intro pseudo old
    rw [protoCsumReplaceByDiff, protoCsumReplaceByDiff]
    exact if_congr h.not rfl rfl
  rw [updateTransport, updateTransport, updateCsum, updateCsum, l4CsumField, l4CsumField, hdiff]

theorem HasChecksum.plainProtocol (h : HasChecksum protocol l4) : PlainProtocol protocol := by
  rcases h with h | ⟨h, -⟩
  · exact Or.inl h
  · exact Or.inr (Or.inl h)

theorem HasChecksum.not_isExtHdr (h : HasChecksum protocol l4) : isExtHdr protocol = false := by
  rcases h with rfl | ⟨rfl, -⟩
  · decide
  · decide

theorem HasChecksum.le_csumOffset (h : HasChecksum protocol l4) : 6 ≤ csumOffset protocol := by
  rcases h with rfl | ⟨rfl, -⟩
  · decide
  · decide

/-- The first fragment shows the checksum of the datagram. -/
theorem HasChecksum.of_append {rest : List UInt8} (h : HasChecksum protocol (l4 ++ rest))
    (hlen : csumOffset protocol + 2 ≤ l4.length) : HasChecksum protocol l4 := by
  rcases h with htcp | ⟨rfl, hnz⟩
  · exact Or.inl htcp
  · have hlen' : 6 + 2 ≤ l4.length := hlen
    rw [load16_append_left hlen'] at hnz
    exact Or.inr ⟨rfl, hnz⟩

end Update

/-! ## Egress -/

/-- A complete IPv4 frame from the pod to `daddr` that egress has no reason to drop: the length is
consistent and the options, if there are any, hold no source route. -/
structure Sent4 (c : Constants) (daddr : UInt32) (protocol : UInt8) (data : List UInt8) : Prop where
  etherType : HasEtherType data ethPIp
  version : (Iphdr.load data ethHlen).version = 4
  headerLength : ip4Hlen ≤ (Iphdr.load data ethHlen).headerLength
  options : (Iphdr.load data ethHlen).headerLength - ip4Hlen = 0 ∨
    hasSourceRoute (data.drop (ethHlen + ip4Hlen))
      ((Iphdr.load data ethHlen).headerLength - ip4Hlen) = false
  totLen : (Iphdr.load data ethHlen).headerLength ≤ (Iphdr.load data ethHlen).length
  consistent : LengthConsistent4 data
  saddr : (Iphdr.load data ethHlen).saddr = c.podIp4
  daddr : (Iphdr.load data ethHlen).daddr = daddr
  protocol : (Iphdr.load data ethHlen).protocol = protocol

theorem egressDiff_congr (k : Kernel) (c : Constants) {v v' : EgressVars}
    (hsaddr : v.saddr = v'.saddr) (hdaddr : v.daddr = v'.daddr) :
    egressDiff k c v = egressDiff k c v' := by
  have hsrc : (v.h6 c).saddr = (v'.h6 c).saddr := rfl
  have hdst : (v.h6 c).daddr = (v'.h6 c).daddr := by
    show { prefixCopy c.clatPrefix with w3 := v.daddr } = _
    rw [hdaddr]
    rfl
  rw [egressDiff, egressDiff, hsaddr, hdaddr, hsrc, hdst]

section Egress

variable {daddr : UInt32} {protocol : UInt8} {data : List UInt8}

theorem Sent4.accepted (h : Sent4 c daddr protocol data) (hunicast : isMcast daddr = false)
    (hproto : protocol ≠ ipprotoIcmp) : HeaderAccepted c (Iphdr.load data ethHlen) where
  version := h.version
  ihl := by
    rw [egressVars_ihl]
    exact h.headerLength
  saddr := h.saddr
  notMcast := by
    rw [h.daddr]
    exact hunicast
  totLen := by
    rw [egressVars_ihl]
    exact h.totLen
  notFragIcmp := fun hfrag => hproto (h.protocol.symm.trans hfrag.2)

/-- The translated frame, seen as a fragment. -/
theorem fragment6_egressHeaders (hlen : 12 ≤ data.length) {p : Iphdr} (hacc : HeaderAccepted c p)
    (hproto : PlainProtocol p.protocol) {l4 : List UInt8} (hl4 : l4.length = (egressVars p).l4len) :
    fragment6 (egressHeaders c (egressVars p) data ++ l4) =
      ⟨if p.IsFragment then p.ident else 0, 8 * p.offset, p.more, l4⟩ := by
  have hmac := length_macHeader hlen (bpfHtons ethPIpv6)
  have hout : egressHeaders c (egressVars p) data ++ l4 =
      (data.take 12 ++ le16Bytes (bpfHtons ethPIpv6)) ++
        (((egressVars p).h6 c).bytes ++ ((egressVars p).fragBytes ++ l4)) := by
    rw [egressHeaders]
    simp only [List.append_assoc]
  have hload : Ipv6hdr.load (egressHeaders c (egressVars p) data ++ l4) ethHlen
      = (egressVars p).h6 c := by
    rw [hout]
    exact Ipv6hdr.load_append_bytes hmac _ _
  have hpay := toNat_h6_payloadLen hacc
  have hdrop := drop_append_headers hmac ((egressVars p).h6 c) (egressVars p) l4
  rw [← hout] at hdrop
  rw [fragment6, offset6, payload6, l4Length6, Ipv6hdr.length, hload, hpay]
  by_cases hfrag : (egressVars p).isFrag
  · have hnh : ((egressVars p).h6 c).nexthdr = ipprotoFragment := if_pos hfrag
    have hfh : FragHdr.load (egressHeaders c (egressVars p) data ++ l4) (ethHlen + ip6Hlen)
        = (egressVars p).fh := by
      rw [hout]
      exact fragHdr_load_append_headers hmac _ hfrag l4
    rw [if_pos hfrag] at hdrop ⊢
    rw [if_pos hnh, if_pos hnh, if_pos hnh, if_pos hnh, hfh, fh_ident, fh_offset, fh_more,
      if_pos (egressVars_isFrag.mp hfrag), Nat.add_sub_cancel, hdrop,
      List.take_of_length_le (Nat.le_of_eq hl4)]
  · have hplain := egressVars_isFrag.not.mp hfrag
    have hnh : ((egressVars p).h6 c).nexthdr ≠ ipprotoFragment :=
      h6_nexthdr_ne_fragment hfrag hproto.not_isExtHdr.1
    have hoff : p.offset = 0 := not_not.mp fun hoff => hplain (Or.inr hoff)
    have hmore : p.more = false := Bool.eq_false_iff.mpr fun hmore => hplain (Or.inl hmore)
    rw [if_neg hfrag] at hdrop ⊢
    rw [if_neg hnh, if_neg hnh, if_neg hnh, if_neg hnh, if_neg hplain, hoff, hmore, hdrop,
      Nat.add_zero, Nat.sub_zero, List.take_of_length_le (Nat.le_of_eq hl4)]

/-- What egress makes of the transport bytes of a packet: the checksum is updated in the packet
that holds it. -/
theorem egressPayload_fragment (k : Kernel) (c : Constants) (st : IpSummed) {p : Iphdr}
    {l4 : List UInt8}
    (hcsum : p.offset = 0 → HasChecksum p.protocol l4 ∧ csumOffset p.protocol + 2 ≤ l4.length) :
    egressPayload k c st (egressVars p) l4 =
        .ok (if 8 * p.offset = 0 then
          updateTransport st p.protocol (egressDiff k c (egressVars p)) l4 else l4) ∧
      (if 8 * p.offset = 0 then
        updateTransport st p.protocol (egressDiff k c (egressVars p)) l4 else l4).length
        = l4.length := by
  by_cases hoff : p.offset = 0
  · obtain ⟨hkind, hlen⟩ := hcsum hoff
    rw [hoff, if_pos (Nat.mul_zero 8)]
    exact ⟨(egressPayload_checksum hoff hkind).mpr ⟨hlen, rfl⟩, length_updateTransport hlen⟩
  · have hoff' : ¬ 8 * p.offset = 0 := by omega
    rw [if_neg hoff', egressPayload, if_neg (egressVars_first.not.mpr hoff)]
    exact ⟨rfl, rfl⟩

/-- **One packet of the pod**, translated. -/
theorem Sent4.translated (hk : k.Lawful) (h : Sent4 c daddr protocol s.skb.data)
    (hunicast : isMcast daddr = false) (hn : NoFault k s ethPIp)
    (hproto : PlainProtocol protocol) (hnicmp : protocol ≠ ipprotoIcmp)
    (hcsum : (fragment4 s.skb.data).offset = 0 →
      HasChecksum protocol (fragment4 s.skb.data).bytes ∧
        csumOffset protocol + 2 ≤ (fragment4 s.skb.data).bytes.length) :
    (clatEgress k c s).1 = .ok ∧
      fragment6 (clatEgress k c s).2.skb.data =
        ⟨if (Iphdr.load s.skb.data ethHlen).IsFragment then (fragment4 s.skb.data).ident else 0,
          (fragment4 s.skb.data).offset, (fragment4 s.skb.data).more,
          if (fragment4 s.skb.data).offset = 0 then
            updateTransport s.skb.ipSummed protocol
              (egressDiff k c (egressVars (Iphdr.load s.skb.data ethHlen)))
              (fragment4 s.skb.data).bytes
          else (fragment4 s.skb.data).bytes⟩ := by
  have hacc := h.accepted hunicast hnicmp
  have hcons : 14 + (Iphdr.load s.skb.data ethHlen).length = s.skb.data.length := h.consistent
  have hihl := h.headerLength
  have htot := h.totLen
  have hcomplete : ethHlen + (Iphdr.load s.skb.data ethHlen).headerLength ≤ s.skb.data.length :=
    (Nat.add_le_add_left htot _).trans (Nat.le_of_eq hcons)
  have hoffset : (fragment4 s.skb.data).offset = 8 * (Iphdr.load s.skb.data ethHlen).offset := rfl
  have hident : (fragment4 s.skb.data).ident = (Iphdr.load s.skb.data ethHlen).ident := rfl
  have hmore : (fragment4 s.skb.data).more = (Iphdr.load s.skb.data ethHlen).more := rfl
  rw [hoffset, h.consistent.fragment4_bytes] at hcsum
  rw [hoffset, hident, hmore, h.consistent.fragment4_bytes]
  have hfirst : (Iphdr.load s.skb.data ethHlen).offset = 0 →
      HasChecksum (Iphdr.load s.skb.data ethHlen).protocol (transportBytes4 s.skb.data) ∧
        csumOffset (Iphdr.load s.skb.data ethHlen).protocol + 2
          ≤ (transportBytes4 s.skb.data).length := by
    rw [h.protocol]
    exact fun hoff => hcsum (by rw [hoff])
  obtain ⟨hpay, hlen⟩ := egressPayload_fragment k c s.skb.ipSummed hfirst
  rw [h.protocol] at hpay hlen
  generalize (if 8 * (Iphdr.load s.skb.data ethHlen).offset = 0 then
    updateTransport s.skb.ipSummed protocol
      (egressDiff k c (egressVars (Iphdr.load s.skb.data ethHlen))) (transportBytes4 s.skb.data)
    else transportBytes4 s.skb.data) = l4' at hpay hlen ⊢
  have hout : egressFrame k c s.skb.ipSummed s.skb.data
      = .ok (egressHeaders c (egressVars (Iphdr.load s.skb.data ethHlen)) s.skb.data ++ l4') := by
    rw [egressFrame_eq_ok, payload4, egressVars_ihl]
    exact ⟨(Nat.add_le_add_left hihl _).trans hcomplete, hacc, h.options, hcomplete, l4', hpay, rfl⟩
  obtain ⟨hok, hdata⟩ := clatEgress_of_frame hk hn h.etherType hout
  refine ⟨hok, ?_⟩
  rw [hdata]
  refine fragment6_egressHeaders (le_trans ?_ hcomplete) hacc (by rwa [h.protocol]) ?_
  · exact le_trans (by decide) (Nat.add_le_add_left hihl ethHlen)
  · rw [hlen, h.consistent.length_transportBytes4]

end Egress

/-! ## All fragments of a datagram -/

/-- The packets `fs`, translated one by one by `run` and reassembled by what their own headers say,
give the transport bytes of the translation of the packet `w`; position, flag and identification
`ident` are those of the fragments. -/
structure Commutes (run : State → TcAct × State) (view view' : List UInt8 → Fragment ℕ UInt8)
    (ident : ℕ) (w : State) (fs : List State) : Prop where
  whole : (run w).1 = .ok
  fragments : ∀ f ∈ fs, (run f).1 = .ok
  kept : ∀ f ∈ fs, (view' (run f).2.skb.data).offset = (view f.skb.data).offset ∧
    (view' (run f).2.skb.data).more = (view f.skb.data).more ∧
    (view' (run f).2.skb.data).ident = ident
  reassembled : reassemble ident (fs.map fun f => view' (run f).2.skb.data)
    = some (view' (run w).2.skb.data).bytes

/-- What has to be known of each packet. -/
theorem Commutes.of_edit {run : State → TcAct × State}
    {view view' : List UInt8 → Fragment ℕ UInt8} (rename : ℕ → ℕ) (e : List UInt8 → List UInt8)
    {ident : ℕ} {w : State} {fs : List State} {ds : List (Fragment ℕ UInt8)}
    (hsplit : Split ident 0 (view w.skb.data).bytes ds)
    (hperm : (fs.map fun f => view f.skb.data).Perm ds)
    (hlocal : ∀ f ∈ fs, (view f.skb.data).offset = 0 →
      (e (view f.skb.data).bytes).length = (view f.skb.data).bytes.length ∧
        ∀ rest, e ((view f.skb.data).bytes ++ rest) = e (view f.skb.data).bytes ++ rest)
    (hwhole : (run w).1 = .ok ∧ (view' (run w).2.skb.data).bytes = e (view w.skb.data).bytes)
    (hfs : ∀ f ∈ fs, (run f).1 = .ok ∧
      view' (run f).2.skb.data = (view f.skb.data).edit rename e) :
    Commutes run view view' (rename ident) w fs := by
  refine ⟨hwhole.1, fun f hf => (hfs f hf).1, fun f hf => ?_, ?_⟩
  · have hident : (view f.skb.data).ident = ident :=
      (hsplit.of_mem _ (hperm.mem_iff.mp (List.mem_map_of_mem hf))).1
    rw [(hfs f hf).2]
    exact ⟨rfl, rfl, congrArg rename hident⟩
  · have hmap : fs.map (fun f => view' (run f).2.skb.data)
        = (fs.map fun f => view f.skb.data).map (Fragment.edit rename e) := by
      rw [List.map_map]
      exact List.map_congr_left fun f hf => (hfs f hf).2
    rw [hmap, hwhole.2]
    refine hsplit.reassemble_edit hperm fun g hg hoffset => ?_
    obtain ⟨f, hf, rfl⟩ := List.mem_map.mp hg
    exact hlocal f hf hoffset

/-- The packets `fs` are the fragments, in any order, of the datagram that the packet `w` of the pod
carries unfragmented: TCP, or UDP with a checksum, and the checksum is in the first fragment. -/
structure Fragments4 (k : Kernel) (c : Constants) (ident : ℕ) (w : State) (fs : List State) :
    Prop where
  unicast : isMcast (Iphdr.load w.skb.data ethHlen).daddr = false
  sent : ∀ f ∈ w :: fs, Sent4 c (Iphdr.load w.skb.data ethHlen).daddr
    (Iphdr.load w.skb.data ethHlen).protocol f.skb.data
  noFault : ∀ f ∈ w :: fs, NoFault k f ethPIp
  -- a checksum field is a partial sum in all of them, or in none
  ipSummed : ∀ f ∈ fs, (f.skb.ipSummed = .checksumPartial ↔ w.skb.ipSummed = .checksumPartial)
  whole : ¬ (Iphdr.load w.skb.data ethHlen).IsFragment
  several : 1 < fs.length
  split : ∃ ds, Split ident 0 (fragment4 w.skb.data).bytes ds ∧
    (fs.map fun f => fragment4 f.skb.data).Perm ds
  checksum : HasChecksum (Iphdr.load w.skb.data ethHlen).protocol (fragment4 w.skb.data).bytes
  first : ∀ f ∈ fs, (fragment4 f.skb.data).offset = 0 →
    csumOffset (Iphdr.load w.skb.data ethHlen).protocol + 2 ≤ (fragment4 f.skb.data).bytes.length

/-- The first fragment holds the checksum, and so does the whole. -/
theorem checksum_of_split {view : List UInt8 → Fragment ℕ UInt8} {ident : ℕ} {w : State}
    {fs : List State} {ds : List (Fragment ℕ UInt8)} {protocol : UInt8}
    (hsplit : Split ident 0 (view w.skb.data).bytes ds)
    (hperm : (fs.map fun f => view f.skb.data).Perm ds)
    (hkind : HasChecksum protocol (view w.skb.data).bytes)
    (hfirst : ∀ f ∈ fs, (view f.skb.data).offset = 0 →
      csumOffset protocol + 2 ≤ (view f.skb.data).bytes.length) :
    csumOffset protocol + 2 ≤ (view w.skb.data).bytes.length ∧
      ∀ f ∈ fs, (view f.skb.data).offset = 0 →
        HasChecksum protocol (view f.skb.data).bytes ∧
          csumOffset protocol + 2 ≤ (view f.skb.data).bytes.length := by
  constructor
  · obtain ⟨g, hg, hoffset⟩ := hsplit.exists_offset_eq
    obtain ⟨f, hf, rfl⟩ := List.mem_map.mp (hperm.mem_iff.mpr hg)
    exact le_trans (hfirst f hf hoffset) (hsplit.length_le _ hg)
  · intro f hf hoffset
    have hlen := hfirst f hf hoffset
    obtain ⟨rest, hrest⟩ := hsplit.eq_append_of_offset
      (hperm.mem_iff.mp (List.mem_map_of_mem hf)) hoffset
    rw [hrest] at hkind
    exact ⟨hkind.of_append hlen, hlen⟩

/-- **Egress commutes with fragmentation.** -/
theorem Fragments4.commutes (hk : k.Lawful) {ident : ℕ} {w : State} {fs : List State}
    (h : Fragments4 k c ident w fs) :
    Commutes (clatEgress k c) fragment4 fragment6 ident w fs := by
  obtain ⟨ds, hsplit, hperm⟩ := h.split
  obtain ⟨hlen, hfirst⟩ := checksum_of_split hsplit hperm h.checksum h.first
  have hproto := h.checksum.plainProtocol
  have hnicmp := h.checksum.ne_icmp.1
  have hsent : ∀ f ∈ fs, _ := fun f hf => h.sent f (List.mem_cons_of_mem _ hf)
  have hwoff : (fragment4 w.skb.data).offset = 0 := by
    show 8 * (Iphdr.load w.skb.data ethHlen).offset = 0
    rw [not_not.mp fun hoff => h.whole (Or.inr hoff)]
  refine Commutes.of_edit id
    (updateTransport w.skb.ipSummed (Iphdr.load w.skb.data ethHlen).protocol
      (egressDiff k c (egressVars (Iphdr.load w.skb.data ethHlen)))) hsplit hperm
    (fun f hf hoffset => ⟨length_updateTransport (h.first f hf hoffset),
      updateCsum_append (h.first f hf hoffset)⟩) ?_ fun f hf => ?_
  · obtain ⟨hok, hview⟩ := (h.sent w List.mem_cons_self).translated hk h.unicast
      (h.noFault w List.mem_cons_self) hproto hnicmp fun _ => ⟨h.checksum, hlen⟩
    rw [hview, if_pos hwoff]
    exact ⟨hok, rfl⟩
  · obtain ⟨hok, hview⟩ := (hsent f hf).translated hk h.unicast
      (h.noFault f (List.mem_cons_of_mem _ hf)) hproto hnicmp (hfirst f hf)
    -- a packet that is one of several says so in its own header
    have hmany : 1 < ds.length := by
      rw [← hperm.length_eq, List.length_map]
      exact h.several
    have hisFrag : (Iphdr.load f.skb.data ethHlen).IsFragment := by
      rcases hsplit.more_or_offset hmany _ (hperm.mem_iff.mp (List.mem_map_of_mem hf)) with
        hmore | hoffset
      · exact Or.inl hmore
      · have hoffset' : 0 < 8 * (Iphdr.load f.skb.data ethHlen).offset := hoffset
        exact Or.inr (by omega)
    have hdiff : egressDiff k c (egressVars (Iphdr.load f.skb.data ethHlen))
        = egressDiff k c (egressVars (Iphdr.load w.skb.data ethHlen)) :=
      egressDiff_congr k c ((hsent f hf).saddr.trans (h.sent w List.mem_cons_self).saddr.symm)
        (hsent f hf).daddr
    rw [hview, if_pos hisFrag, hdiff, updateTransport_congr (h.ipSummed f hf)]
    exact ⟨hok, rfl⟩

/-! ## Ingress -/

theorem ingressDiff_congr (k : Kernel) (c : Constants) {v v' : IngressVars}
    (hsaddr : v.saddr6 = v'.saddr6) (hdaddr : v.daddr6 = v'.daddr6)
    (hmapped : v.srcMapped = v'.srcMapped) : ingressDiff k c v = ingressDiff k c v' := by
  have hsrc : (v.h4 k c v.totLen).saddr = (v'.h4 k c v'.totLen).saddr := by
    show (if v.srcMapped then v.saddr6.w3 else c.errIp4) = _
    rw [hmapped, hsaddr]
    rfl
  have hdst : (v.h4 k c v.totLen).daddr = (v'.h4 k c v'.totLen).daddr := rfl
  rw [ingressDiff, ingressDiff, hsaddr, hdaddr, hsrc, hdst]

/-- A frame to the pod from `saddr`, with consistent length and no extension header but the Fragment
header, which is complete. -/
structure Sent6 (c : Constants) (saddr : In6Addr) (protocol : UInt8) (data : List UInt8) :
    Prop where
  fromPrefix : FromPrefix c data
  saddr : (Ipv6hdr.load data ethHlen).saddr = saddr
  consistent : LengthConsistent6 data
  fragment : (Ipv6hdr.load data ethHlen).nexthdr = ipprotoFragment →
    fragHlen ≤ (Ipv6hdr.load data ethHlen).length
  protocol : transport6 data = protocol

section Ingress

variable {saddr : In6Addr} {protocol : UInt8} {data : List UInt8}

/-- `clat_ingress` reads the headers. -/
theorem Sent6.vars_eq (h : Sent6 c saddr protocol data) (hext : isExtHdr protocol = false)
    (hnicmp : protocol ≠ ipprotoIcmpv6) : ∃ v, ingressVars c data = .ok v := by
  have hcons : 14 + 40 + (Ipv6hdr.load data ethHlen).length = data.length := h.consistent
  have hprotocol := h.protocol
  rw [transport6] at hprotocol
  by_cases hnh : (Ipv6hdr.load data ethHlen).nexthdr = ipprotoFragment
  · rw [if_pos hnh] at hprotocol
    have hlen := h.fragment hnh
    have hlong : ethHlen + ip6Hlen + fragHlen ≤ data.length := by
      rw [← hcons]
      exact Nat.add_le_add_left hlen _
    refine ⟨_, ingressVars_eq_ok.mpr ⟨?_, fun h' => ?_, Or.inr ⟨hnh, hlong, hlen, rfl⟩⟩⟩
    · rw [← hext, ← hprotocol]
      rfl
    · exact hnicmp (hprotocol.symm.trans h'.1)
  · rw [if_neg hnh] at hprotocol
    refine ⟨_, ingressVars_eq_ok.mpr ⟨?_, fun h' => Bool.false_ne_true h'.2, Or.inl ⟨hnh, rfl⟩⟩⟩
    rw [← hext, ← hprotocol]
    rfl

/-- The translated frame, seen as a fragment. -/
theorem fragment4_ingressHeaders (k : Kernel) (c : Constants) (hlen : 12 ≤ data.length)
    {v : IngressVars} {l4 : List UInt8} (hl4 : l4.length = v.payloadLen)
    (hfits : v.payloadLen ≤ 65515) :
    fragment4 (ingressHeaders k c v data v.totLen ++ l4) =
      ⟨v.id.toNat, 8 * (v.frag4.toNat % 8192), v.frag4.toNat.testBit 13, l4⟩ := by
  have hload := iphdr_load_ingressHeaders k c v v.totLen l4 hlen
  have hident : (v.h4 k c v.totLen).ident = v.id.toNat := by
    show (bswap16 (bswap16 v.id)).toNat = _
    rw [bswap16_bswap16]
  have hfrag : bpfNtohs (v.h4 k c v.totLen).fragOff = v.frag4 := by
    show bswap16 (bswap16 v.frag4) = _
    rw [bswap16_bswap16]
  have hihl : (v.h4 k c v.totLen).headerLength = ip4Hlen := rfl
  have htot : v.totLen.toNat = v.payloadLen + ip4Hlen := by
    have h : v.totLen.toNat = (v.payloadLen + 20) % 65536 := UInt16.toNat_ofNat'
    rw [h]
    exact Nat.mod_eq_of_lt (by omega)
  rw [fragment4, transportBytes4, hload, hident, Iphdr.offset, Iphdr.more, hfrag, hihl, length_h4,
    htot, Nat.add_sub_cancel, List.drop_left' (length_ingressHeaders hlen),
    List.take_of_length_le (Nat.le_of_eq hl4)]

/-- Identification, position and flag of the IPv4 header, from those of the frame. -/
theorem ReadAs.fragment4_eq {v : IngressVars} (hv : ReadAs c data v) :
    v.id.toNat = (fragment6 data).ident % 65536 ∧
      8 * (v.frag4.toNat % 8192) = (fragment6 data).offset ∧
      v.frag4.toNat.testBit 13 = (fragment6 data).more := by
  rw [fragment6, hv.frag4_offset]
  by_cases hnh : (Ipv6hdr.load data ethHlen).nexthdr = ipprotoFragment
  · obtain ⟨hid, hfrag4⟩ := hv.frag hnh
    rw [if_pos hnh, if_pos hnh, hid, hfrag4, UInt32.toNat_toUInt16, frag4Of_more]
    exact ⟨rfl, rfl, rfl⟩
  · obtain ⟨hid, hfrag4⟩ := hv.plain hnh
    rw [if_neg hnh, if_neg hnh, hid, hfrag4]
    exact ⟨rfl, rfl, rfl⟩

/-- What ingress makes of the transport bytes of a packet: the checksum is updated in the packet
that holds it. -/
theorem ingressPayload_fragment (k : Kernel) (c : Constants) (st : IpSummed) {v : IngressVars}
    {l4 : List UInt8} {offset : ℕ} (hfirst : v.first = true ↔ offset = 0)
    (hcsum : offset = 0 → HasChecksum v.nh l4 ∧ csumOffset v.nh + 2 ≤ l4.length) :
    ingressPayload k c st v l4 =
        .ok (sameLength v (if offset = 0 then
          updateTransport st v.nh (ingressDiff k c v) l4 else l4)) ∧
      (if offset = 0 then updateTransport st v.nh (ingressDiff k c v) l4 else l4).length
        = l4.length := by
  by_cases hoff : offset = 0
  · obtain ⟨hkind, hlen⟩ := hcsum hoff
    rw [if_pos hoff]
    exact ⟨(ingressPayload_checksum (hfirst.mpr hoff) hkind).mpr ⟨hlen, rfl⟩,
      length_updateTransport hlen⟩
  · rw [if_neg hoff, ingressPayload, if_neg (hfirst.not.mpr hoff)]
    exact ⟨rfl, rfl⟩

/-- **One packet for the pod**, translated. -/
theorem Sent6.translated (hk : k.Lawful) (h : Sent6 c saddr protocol s.skb.data)
    (hn : NoFault k s ethPIpv6) (hext : isExtHdr protocol = false)
    (hnicmp : protocol ≠ ipprotoIcmpv6) (hlong : ethHlen + ip6Hlen + fragHlen ≤ s.skb.data.length)
    (hfits : (fragment6 s.skb.data).bytes.length ≤ 65515)
    (hcsum : (fragment6 s.skb.data).offset = 0 →
      HasChecksum protocol (fragment6 s.skb.data).bytes ∧
        csumOffset protocol + 2 ≤ (fragment6 s.skb.data).bytes.length) :
    ∃ v, ReadAs c s.skb.data v ∧ (clatIngress k c s).1 = .ok ∧
      fragment4 (clatIngress k c s).2.skb.data =
        (fragment6 s.skb.data).edit (· % 65536)
          (updateTransport s.skb.ipSummed protocol (ingressDiff k c v)) := by
  obtain ⟨v, hvars⟩ := h.vars_eq hext hnicmp
  have hv := ingressVars_readAs hvars
  have hnh : v.nh = protocol := hv.nh.trans h.protocol
  have hmac : 12 ≤ s.skb.data.length := le_trans (by decide) hlong
  have hbytes := h.consistent.fragment6_bytes
  have hpayLen : (payload6 s.skb.data).length = v.payloadLen := by
    rw [h.consistent.length_payload6, hv.payloadLen]
  have hfirst : v.first = true ↔ (fragment6 s.skb.data).offset = 0 := by
    rw [hv.first]
    show offset6 s.skb.data = 0 ↔ 8 * offset6 s.skb.data = 0
    omega
  rw [hbytes, ← hnh] at hcsum
  rw [hbytes, hpayLen] at hfits
  obtain ⟨hpay, hlen⟩ := ingressPayload_fragment k c s.skb.ipSummed hfirst hcsum
  rw [← hv.l4] at hpay hlen
  have hout := ingressFrame_eq_ok.mpr ⟨v, _, hvars, hpay, rfl⟩
  have hfrom := h.fromPrefix
  have hret : ReturnTraffic c s.skb.data :=
    ⟨hfrom.1.2, hfrom.2.1, hfrom.2.2.1, hfrom.2.2.2.1, Or.inl hfrom.2.2.2.2⟩
  obtain ⟨hok, hdata⟩ := clatIngress_of_frame hk hn hret hlong hout
  refine ⟨v, hv, hok, ?_⟩
  rw [hdata]
  rw [hv.l4] at hlen ⊢
  refine (fragment4_ingressHeaders k c hmac (hlen.trans hpayLen) hfits).trans ?_
  obtain ⟨hident, hoffset, hmore⟩ := hv.fragment4_eq
  rw [hident, hoffset, hmore, hnh, ← hbytes]
  rfl

end Ingress

/-- The packets `fs` are the fragments, in any order, of the datagram that the packet `w` for the
pod carries unfragmented: TCP, or UDP with a checksum, of a length that fits into IPv4, and the
checksum is in the first fragment. -/
structure Fragments6 (k : Kernel) (c : Constants) (ident : ℕ) (w : State) (fs : List State) :
    Prop where
  sent : ∀ f ∈ w :: fs, Sent6 c (Ipv6hdr.load w.skb.data ethHlen).saddr
    (transport6 w.skb.data) f.skb.data
  noFault : ∀ f ∈ w :: fs, NoFault k f ethPIpv6
  -- a checksum field is a partial sum in all of them, or in none
  ipSummed : ∀ f ∈ fs, (f.skb.ipSummed = .checksumPartial ↔ w.skb.ipSummed = .checksumPartial)
  whole : (Ipv6hdr.load w.skb.data ethHlen).nexthdr ≠ ipprotoFragment
  fragments : ∀ f ∈ fs, (Ipv6hdr.load f.skb.data ethHlen).nexthdr = ipprotoFragment
  split : ∃ ds, Split ident 0 (fragment6 w.skb.data).bytes ds ∧
    (fs.map fun f => fragment6 f.skb.data).Perm ds
  fits : (fragment6 w.skb.data).bytes.length ≤ 65515
  checksum : HasChecksum (transport6 w.skb.data) (fragment6 w.skb.data).bytes
  first : ∀ f ∈ fs, (fragment6 f.skb.data).offset = 0 →
    csumOffset (transport6 w.skb.data) + 2 ≤ (fragment6 f.skb.data).bytes.length

/-- **Ingress commutes with fragmentation.** -/
theorem Fragments6.commutes (hk : k.Lawful) {ident : ℕ} {w : State} {fs : List State}
    (h : Fragments6 k c ident w fs) :
    Commutes (clatIngress k c) fragment6 fragment4 (ident % 65536) w fs := by
  obtain ⟨ds, hsplit, hperm⟩ := h.split
  obtain ⟨hlen, hfirst⟩ := checksum_of_split hsplit hperm h.checksum h.first
  have hext := h.checksum.not_isExtHdr
  have hnicmp := h.checksum.ne_icmp.2
  have hw := h.sent w List.mem_cons_self
  have hwoff : (fragment6 w.skb.data).offset = 0 := by
    show 8 * offset6 w.skb.data = 0
    rw [offset6, if_neg h.whole]
  have hwlong : ethHlen + ip6Hlen + fragHlen ≤ w.skb.data.length := by
    have hcoff := h.checksum.le_csumOffset
    rw [hw.consistent.fragment6_bytes, payload6, if_neg h.whole, List.length_drop] at hlen
    revert hlen
    simp only [ethHlen, ip6Hlen, fragHlen]
    omega
  obtain ⟨v, hv, hok, hview⟩ := hw.translated hk (h.noFault w List.mem_cons_self) hext hnicmp hwlong
    h.fits fun _ => ⟨h.checksum, hlen⟩
  refine Commutes.of_edit (· % 65536)
    (updateTransport w.skb.ipSummed (transport6 w.skb.data) (ingressDiff k c v)) hsplit hperm
    (fun f hf hoffset => ⟨length_updateTransport (h.first f hf hoffset),
      updateCsum_append (h.first f hf hoffset)⟩) ?_ fun f hf => ?_
  · rw [hview, Fragment.edit, if_pos hwoff]
    exact ⟨hok, rfl⟩
  · have hf' := h.sent f (List.mem_cons_of_mem _ hf)
    have hflong : ethHlen + ip6Hlen + fragHlen ≤ f.skb.data.length := by
      have hcons : 14 + 40 + (Ipv6hdr.load f.skb.data ethHlen).length = f.skb.data.length :=
        hf'.consistent
      rw [← hcons]
      exact Nat.add_le_add_left (hf'.fragment (h.fragments f hf)) _
    have hfits : (fragment6 f.skb.data).bytes.length ≤ 65515 :=
      le_trans (hsplit.length_le _ (hperm.mem_iff.mp (List.mem_map_of_mem hf))) h.fits
    obtain ⟨u, hu, hok', hview'⟩ := hf'.translated hk
      (h.noFault f (List.mem_cons_of_mem _ hf)) hext hnicmp hflong hfits (hfirst f hf)
    have hsaddr : (Ipv6hdr.load f.skb.data ethHlen).saddr
        = (Ipv6hdr.load w.skb.data ethHlen).saddr := hf'.saddr
    have hdaddr : (Ipv6hdr.load f.skb.data ethHlen).daddr
        = (Ipv6hdr.load w.skb.data ethHlen).daddr :=
      hf'.fromPrefix.2.2.2.1.trans hw.fromPrefix.2.2.2.1.symm
    have hdiff : ingressDiff k c u = ingressDiff k c v := by
      refine ingressDiff_congr k c ?_ ?_ ?_
      · rw [hu.saddr6, hv.saddr6, hsaddr]
      · rw [hu.daddr6, hv.daddr6, hdaddr]
      · rw [hu.srcMapped, hv.srcMapped, hsaddr]
    have hedit : updateTransport f.skb.ipSummed (transport6 w.skb.data) (ingressDiff k c u)
        = updateTransport w.skb.ipSummed (transport6 w.skb.data) (ingressDiff k c v) := by
      funext l4
      rw [hdiff, updateTransport_congr (h.ipSummed f hf)]
    rw [hview', hedit]
    exact ⟨hok', rfl⟩

/-- **Translation commutes with fragmentation**, in both directions: the fragments of a datagram,
translated one by one in any order, reassemble to the translation of the whole.  Positions and flags
are kept, and of the identification all that IPv4 has room for. -/
theorem translation_commutes_with_fragmentation (hk : k.Lawful) (ident : ℕ) (w : State)
    (fs : List State) :
    (Fragments4 k c ident w fs → Commutes (clatEgress k c) fragment4 fragment6 ident w fs) ∧
      (Fragments6 k c ident w fs →
        Commutes (clatIngress k c) fragment6 fragment4 (ident % 65536) w fs) :=
  ⟨fun h => h.commutes hk, fun h => h.commutes hk⟩

/-- Forty bytes of a TCP segment. -/
def testSegment : List UInt8 :=
  (List.range 40).map UInt8.ofNat

/-- The segment in two IPv4 fragments, the second one first. -/
def testFragments4 : List State :=
  [testState (testFrame4 3 6 (testSegment.drop 24)) ethPIp,
    testState (testFrame4 0x2000 6 (testSegment.take 24)) ethPIp]

/-- The segment in two IPv6 fragments, the second one first, with an identification that IPv4 has no
room for. -/
def testFragments6 : List State :=
  [testState (testFrame6 44 testPeer6
      (FragHdr.bytes ⟨6, 0, bpfHtons 24, bpfHtonl 0x51234⟩ ++ testSegment.drop 24)) ethPIpv6,
    testState (testFrame6 44 testPeer6
      (FragHdr.bytes ⟨6, 0, bpfHtons 1, bpfHtonl 0x51234⟩ ++ testSegment.take 24)) ethPIpv6]

/-- The cut of the segment. -/
theorem split_testSegment (ident : ℕ) : Split ident 0 testSegment
    [⟨ident, 0, true, testSegment.take 24⟩, ⟨ident, 24, false, testSegment.drop 24⟩] := by
  have h : testSegment = testSegment.take 24 ++ testSegment.drop 24 :=
    (List.take_append_drop _ _).symm
  nth_rewrite 1 [h]
  exact Split.more (by decide) (Split.last 24 _)

theorem fragments4_testSegment :
    Fragments4 .reference testConstants 0x1234 (testState (testFrame4 0 6 testSegment) ethPIp)
      testFragments4 where
  unicast := by decide +kernel
  sent := by
    simp only [testFragments4, List.forall_mem_cons]
    refine ⟨?_, ?_, ?_, List.forall_mem_nil _⟩
    · constructor <;> decide +kernel
    · constructor <;> decide +kernel
    · constructor <;> decide +kernel
  noFault := by
    simp only [testFragments4, List.forall_mem_cons]
    exact ⟨⟨Kernel.reference_reliable, rfl⟩, ⟨Kernel.reference_reliable, rfl⟩,
      ⟨Kernel.reference_reliable, rfl⟩, List.forall_mem_nil _⟩
  ipSummed := by decide
  whole := by decide +kernel
  several := by decide
  split := by
    have hbytes : (fragment4 (testFrame4 0 6 testSegment)).bytes = testSegment := by
      decide +kernel
    refine ⟨_, hbytes ▸ split_testSegment _, ?_⟩
    have hmap : testFragments4.map (fun f => fragment4 f.skb.data) =
        [⟨0x1234, 24, false, testSegment.drop 24⟩, ⟨0x1234, 0, true, testSegment.take 24⟩] := by
      decide +kernel
    rw [hmap]
    exact List.Perm.swap _ _ _
  checksum := by decide +kernel
  first := by decide +kernel

theorem fragments6_testSegment :
    Fragments6 .reference testConstants 0x51234
      (testState (testFrame6 6 testPeer6 testSegment) ethPIpv6) testFragments6 where
  sent := by
    simp only [testFragments6, List.forall_mem_cons]
    refine ⟨?_, ?_, ?_, List.forall_mem_nil _⟩
    · constructor <;> decide +kernel
    · constructor <;> decide +kernel
    · constructor <;> decide +kernel
  noFault := by
    simp only [testFragments6, List.forall_mem_cons]
    exact ⟨⟨Kernel.reference_reliable, rfl⟩, ⟨Kernel.reference_reliable, rfl⟩,
      ⟨Kernel.reference_reliable, rfl⟩, List.forall_mem_nil _⟩
  ipSummed := by decide
  whole := by decide +kernel
  fragments := by decide +kernel
  split := by
    have hbytes : (fragment6 (testFrame6 6 testPeer6 testSegment)).bytes = testSegment := by
      decide +kernel
    refine ⟨_, hbytes ▸ split_testSegment _, ?_⟩
    have hmap : testFragments6.map (fun f => fragment6 f.skb.data) =
        [⟨0x51234, 24, false, testSegment.drop 24⟩,
          ⟨0x51234, 0, true, testSegment.take 24⟩] := by
      decide +kernel
    rw [hmap]
    exact List.Perm.swap _ _ _
  fits := by decide +kernel
  checksum := by decide +kernel
  first := by decide +kernel

theorem translation_commutes_with_fragmentation_tcp :
    let w4 := testState (testFrame4 0 6 testSegment) ethPIp
    let w6 := testState (testFrame6 6 testPeer6 testSegment) ethPIpv6
    (Fragments4 .reference testConstants 0x1234 w4 testFragments4 ∧
      Commutes (clatEgress .reference testConstants) fragment4 fragment6 0x1234 w4
        testFragments4) ∧
    Fragments6 .reference testConstants 0x51234 w6 testFragments6 ∧
      Commutes (clatIngress .reference testConstants) fragment6 fragment4 (0x51234 % 65536) w6
        testFragments6 :=
  ⟨⟨fragments4_testSegment,
      (translation_commutes_with_fragmentation Kernel.reference_lawful _ _ _).1
        fragments4_testSegment⟩,
    fragments6_testSegment,
    (translation_commutes_with_fragmentation Kernel.reference_lawful _ _ _).2
      fragments6_testSegment⟩

end CiliumClat
