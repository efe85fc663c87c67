import Mathlib.Data.List.Basic
import Mathlib.Data.List.Perm.Basic

/-!
# Fragments of a datagram and their reassembly

A datagram is cut into fragments, each of which says which datagram it belongs to, where its
elements stand in it and whether more of them follow.  `Split i pos l fs` says that `fs` is such
a cut of `l`, in order, with the first element of `l` at `pos`.

`reassemble i gs` is what a receiver does with the fragments that have arrived in the order `gs`:
from the beginning of the datagram on, look for the fragment that comes next, until one says that
nothing follows.  It sees nothing but what the fragments say about themselves.

* `Split.reassemble_eq`: the fragments of a cut, in any order, reassemble to the datagram.
* `Split.edit`: a change of the datagram that only touches its beginning may be made in the first
  fragment alone.
-/

namespace Reassembly

universe u v w

/-- A fragment of the datagram `ident`: some of its elements, where they stand, and whether more
follow. -/
structure Fragment (ι : Type u) (α : Type v) where
  ident : ι
  offset : ℕ
  more : Bool
  bytes : List α
  deriving DecidableEq, Repr

variable {ι : Type u} {κ : Type w} {α : Type v}

/-- **A cut** of the list `l`, which begins at `pos`, into fragments of the datagram `i`.  Only the
last fragment may be empty. -/
inductive Split (i : ι) : ℕ → List α → List (Fragment ι α) → Prop
  | last (pos : ℕ) (l : List α) : Split i pos l [⟨i, pos, false, l⟩]
  | more {pos : ℕ} {bs l : List α} {fs : List (Fragment ι α)} (hne : bs ≠ [])
      (hrest : Split i (pos + bs.length) l fs) : Split i pos (bs ++ l) (⟨i, pos, true, bs⟩ :: fs)

/-! ## Cuts -/

namespace Split

variable {i : ι} {pos : ℕ} {l : List α} {fs : List (Fragment ι α)}

/-- Every fragment names the datagram and stands behind the beginning. -/
theorem of_mem (h : Split i pos l fs) : ∀ f ∈ fs, f.ident = i ∧ pos ≤ f.offset := by
  induction h with
  | last pos l =>
    intro f hf
    rw [List.mem_singleton] at hf
    subst hf
    exact ⟨rfl, Nat.le_refl pos⟩
  | more hne hrest ih =>
    intro f hf
    rcases List.mem_cons.mp hf with rfl | hf
    · exact ⟨rfl, Nat.le_refl _⟩
    · obtain ⟨hident, hoffset⟩ := ih f hf
      exact ⟨hident, Nat.le_trans (Nat.le_add_right _ _) hoffset⟩

/-- No fragment is longer than the datagram. -/
theorem length_le (h : Split i pos l fs) : ∀ f ∈ fs, f.bytes.length ≤ l.length := by
  induction h with
  | last pos l =>
    intro f hf
    rw [List.mem_singleton] at hf
    subst hf
    exact Nat.le_refl _
  | more hne hrest ih =>
    intro f hf
    rw [List.length_append]
    rcases List.mem_cons.mp hf with rfl | hf
    · exact Nat.le_add_right _ _
    · exact Nat.le_trans (ih f hf) (Nat.le_add_left _ _)

/-- There is a first fragment. -/
theorem exists_offset_eq (h : Split i pos l fs) : ∃ f ∈ fs, f.offset = pos := by
  cases h with
  | last => exact ⟨_, List.mem_cons_self, rfl⟩
  | more => exact ⟨_, List.mem_cons_self, rfl⟩

/-- The first fragment is the only one at the beginning, and holds the beginning. -/
theorem eq_append_of_offset (h : Split i pos l fs) {f : Fragment ι α} (hf : f ∈ fs)
    (hoffset : f.offset = pos) : ∃ rest, l = f.bytes ++ rest := by
  cases h with
  | last =>
    rw [List.mem_singleton] at hf
    subst hf
    exact ⟨[], (List.append_nil _).symm⟩
  | more hne hrest =>
    rcases List.mem_cons.mp hf with rfl | hf
    · exact ⟨_, rfl⟩
    · have hbehind := (hrest.of_mem f hf).2
      have hpos := List.length_pos_of_ne_nil hne
      omega

/-- In a cut into several pieces every fragment says that it is one. -/
theorem more_or_offset (h : Split i pos l fs) (hmany : 1 < fs.length) :
    ∀ f ∈ fs, f.more = true ∨ pos < f.offset := by
  cases h with
  | last => exact absurd hmany (Nat.lt_irrefl 1)
  | more hne hrest =>
    intro f hf
    rcases List.mem_cons.mp hf with rfl | hf
    · exact Or.inl rfl
    · have hbehind := (hrest.of_mem f hf).2
      have hpos := List.length_pos_of_ne_nil hne
      exact Or.inr (by omega)

end Split

/-! ## Reassembly -/

section Reassemble

variable [DecidableEq ι]

/-- The fragment of the datagram `i` that begins at `pos`, among those that have arrived. -/
def next (i : ι) (gs : List (Fragment ι α)) (pos : ℕ) : Option (Fragment ι α) :=
  gs.find? fun f => decide (f.ident = i ∧ f.offset = pos)

/-- The datagram `i` from `pos` on, out of at most `fuel` fragments. -/
def reassembleFrom (i : ι) (gs : List (Fragment ι α)) : ℕ → ℕ → Option (List α)
  | 0, _ => none
  | fuel + 1, pos =>
    match next i gs pos with
    | none => none
    | some f =>
      if f.more then (reassembleFrom i gs fuel (pos + f.bytes.length)).map (f.bytes ++ ·)
      else some f.bytes

/-- **Reassembly** of the datagram `i` from the fragments that have arrived. -/
def reassemble (i : ι) (gs : List (Fragment ι α)) : Option (List α) :=
  reassembleFrom i gs gs.length 0

theorem next_eq {i : ι} {gs : List (Fragment ι α)} {f : Fragment ι α} (hf : f ∈ gs)
    (hident : f.ident = i)
    (honly : ∀ g ∈ gs, g.ident = i → g.offset = f.offset → g = f) :
    next i gs f.offset = some f := by
  rw [next]
  cases hfind : gs.find? fun g => decide (g.ident = i ∧ g.offset = f.offset) with
  | none =>
    have hnot := List.find?_eq_none.mp hfind f hf
    exact absurd (decide_eq_true ⟨hident, rfl⟩) hnot
  | some g =>
    have hg := List.find?_some hfind
    obtain ⟨hgi, hgo⟩ := of_decide_eq_true hg
    rw [honly g (List.mem_of_find?_eq_some hfind) hgi hgo]

/-- One more fragment: what has arrived from `pos` on begins with it, and what follows has arrived
behind it. -/
theorem Split.next_eq_head {i : ι} {f : Fragment ι α} {fs gs : List (Fragment ι α)}
    (hident : f.ident = i)
    (harrived : ∀ g, g ∈ f :: fs ↔ g ∈ gs ∧ g.ident = i ∧ f.offset ≤ g.offset)
    (hbehind : ∀ g ∈ fs, f.offset < g.offset) : next i gs f.offset = some f := by
  refine next_eq ((harrived f).mp List.mem_cons_self).1 hident fun g hg hgi hgo => ?_
  rcases List.mem_cons.mp ((harrived g).mpr ⟨hg, hgi, Nat.le_of_eq hgo.symm⟩) with rfl | hg
  · rfl
  · exact absurd hgo (Nat.ne_of_gt (hbehind g hg))

/-- **Reassembly of the rest of a datagram**, from any collection of fragments in which those of the
datagram from `pos` on are the fragments of the cut. -/
theorem Split.reassembleFrom_eq {i : ι} {pos : ℕ} {l : List α} {fs gs : List (Fragment ι α)}
    (h : Split i pos l fs)
    (harrived : ∀ f, f ∈ fs ↔ f ∈ gs ∧ f.ident = i ∧ pos ≤ f.offset) {fuel : ℕ}
    (hfuel : fs.length ≤ fuel) : reassembleFrom i gs fuel pos = some l := by
  induction h generalizing fuel with
  | last pos l =>
    cases fuel with
    | zero => exact absurd hfuel (by simp)
    | succ fuel =>
      have hnext : next i gs pos = some ⟨i, pos, false, l⟩ :=
        Split.next_eq_head rfl harrived fun g hg => absurd hg List.not_mem_nil
      rw [reassembleFrom, hnext]
      rfl
  | @more pos bs l fs hne hrest ih =>
    have hpos := List.length_pos_of_ne_nil hne
    cases fuel with
    | zero => exact absurd hfuel (by simp)
    | succ fuel =>
      have hbehind : ∀ g ∈ fs, pos + bs.length ≤ g.offset := fun g hg => (hrest.of_mem g hg).2
      have hnext : next i gs pos = some ⟨i, pos, true, bs⟩ :=
        Split.next_eq_head rfl harrived fun g hg => by
          have := hbehind g hg
          show pos < g.offset
          omega
      have hrun : reassembleFrom i gs fuel (pos + bs.length) = some l := by
        refine ih (fun f => ?_) (Nat.le_of_succ_le_succ hfuel)
        constructor
        · intro hf
          obtain ⟨hmem, hident, -⟩ := (harrived f).mp (List.mem_cons_of_mem _ hf)
          exact ⟨hmem, hident, hbehind f hf⟩
        · rintro ⟨hmem, hident, hoffset⟩
          have hf := (harrived f).mpr ⟨hmem, hident, by omega⟩
          rcases List.mem_cons.mp hf with rfl | hf
          · exact absurd hoffset (by show ¬ pos + bs.length ≤ pos; omega)
          · exact hf
      rw [reassembleFrom, hnext]
      show (reassembleFrom i gs fuel (pos + bs.length)).map (bs ++ ·) = _
      rw [hrun]
      rfl

/-- **The fragments of a datagram, in any order, reassemble to it.** -/
theorem Split.reassemble_eq {i : ι} {l : List α} {fs gs : List (Fragment ι α)}
    (h : Split i 0 l fs) (hperm : gs.Perm fs) : reassemble i gs = some l := by
  refine h.reassembleFrom_eq (fun f => ?_) (Nat.le_of_eq hperm.length_eq.symm)
  rw [hperm.mem_iff]
  exact ⟨fun hf => ⟨hf, (h.of_mem f hf).1, Nat.zero_le _⟩, fun hf => hf.1⟩

end Reassemble

/-! ## Changes at the beginning -/

/-- The fragment with the datagram renamed by `rename`, and, if it is the first, its elements
changed by `e`. -/
def Fragment.edit (rename : ι → κ) (e : List α → List α) (f : Fragment ι α) : Fragment κ α where
  ident := rename f.ident
  offset := f.offset
  more := f.more
  bytes := if f.offset = 0 then e f.bytes else f.bytes

section Edit

variable {rename : ι → κ} {e : List α → List α} {i : ι} {pos : ℕ} {l : List α}
  {fs : List (Fragment ι α)}

/-- Behind the beginning nothing is changed. -/
theorem Split.edit_of_pos (h : Split i pos l fs) (hpos : 0 < pos) :
    Split (rename i) pos l (fs.map (Fragment.edit rename e)) := by
  induction h with
  | last pos l =>
    rw [List.map_singleton, Fragment.edit, if_neg (Nat.ne_of_gt hpos)]
    exact Split.last pos l
  | more hne hrest ih =>
    rw [List.map_cons, Fragment.edit, if_neg (Nat.ne_of_gt hpos)]
    exact Split.more hne (ih (Nat.lt_of_lt_of_le hpos (Nat.le_add_right _ _)))

/-- **A change that only touches what the first fragment holds** turns the fragments of a datagram
into fragments of the changed datagram. -/
theorem Split.edit (h : Split i 0 l fs)
    (hlocal : ∀ f ∈ fs, f.offset = 0 → (e f.bytes).length = f.bytes.length ∧
      ∀ rest, e (f.bytes ++ rest) = e f.bytes ++ rest) :
    Split (rename i) 0 (e l) (fs.map (Fragment.edit rename e)) := by
  cases h with
  | last => exact Split.last 0 (e l)
  | @more _ bs l fs hne hrest =>
    obtain ⟨hlen, happend⟩ := hlocal _ List.mem_cons_self rfl
    have hpos := List.length_pos_of_ne_nil hne
    have hlen' : (e bs).length = bs.length := hlen
    have hpos' : 0 < (e bs).length := by
      rw [hlen']
      exact hpos
    rw [happend, List.map_cons, Fragment.edit, if_pos rfl]
    refine Split.more (List.ne_nil_of_length_pos hpos') ?_
    rw [hlen']
    exact hrest.edit_of_pos (by omega)

/-- **Fragments changed one by one, in any order, reassemble to the changed datagram.** -/
theorem Split.reassemble_edit [DecidableEq κ] {gs : List (Fragment ι α)} (h : Split i 0 l fs)
    (hperm : gs.Perm fs)
    (hlocal : ∀ f ∈ gs, f.offset = 0 → (e f.bytes).length = f.bytes.length ∧
      ∀ rest, e (f.bytes ++ rest) = e f.bytes ++ rest) :
    reassemble (rename i) (gs.map (Fragment.edit rename e)) = some (e l) := by
  refine Split.reassemble_eq (h.edit fun f hf => ?_) (hperm.map _)
  exact hlocal f (hperm.mem_iff.mpr hf)

end Edit

end Reassembly
