import Mathlib.Data.List.Nodup
import Mathlib.Data.Set.Basic

/-!
# Tables with a key

`Table key` is a list of entries no two of which have the same key.  Entries are put in and taken
out by key: `replace` puts an entry in the place of the one with its key, `remove` takes out the
entries that satisfy a test.  Both keep the invariant, so it is a field of the table and is proved
once.

Nothing here depends on where an entry stands.  What holds of a table is said by membership
(`mem_replace`, `mem_remove`), and a table is a set of entries as far as anyone can tell.  `put` and
`without` are the two operations on sets; they also serve for several tables at once, whose entries
are then the entries of one set.
-/

namespace KeyedTable

variable {α κ : Type}

/-- A list of entries with different keys. -/
@[ext] structure Table (key : α → κ) where
  entries : List α
  nodup : (entries.map key).Nodup

namespace Table

variable {key : α → κ} {t : Table key} {x y : α}

instance : Membership α (Table key) where
  mem t x := x ∈ t.entries

theorem mem_def : x ∈ t ↔ x ∈ t.entries := Iff.rfl

instance [DecidableEq α] (x : α) (t : Table key) : Decidable (x ∈ t) :=
  inferInstanceAs (Decidable (x ∈ t.entries))

instance (t : Table key) (p : α → Prop) [DecidablePred p] : Decidable (∀ x ∈ t, p x) :=
  inferInstanceAs (Decidable (∀ x ∈ t.entries, p x))

instance (t : Table key) (p : α → Prop) [DecidablePred p] : Decidable (∃ x ∈ t, p x) :=
  inferInstanceAs (Decidable (∃ x ∈ t.entries, p x))

/-- Two entries with the same key are one. -/
theorem eq_of_key (hx : x ∈ t) (hy : y ∈ t) (h : key x = key y) : x = y :=
  List.inj_on_of_nodup_map t.nodup hx hy h

/-- The table without entries. -/
def empty : Table key where
  entries := []
  nodup := List.nodup_nil

/-- Take out the entries that satisfy the test. -/
def remove (p : α → Bool) (t : Table key) : Table key where
  entries := t.entries.filter fun x => !p x
  nodup := (List.Sublist.map key List.filter_sublist).nodup t.nodup

theorem entries_remove (p : α → Bool) (t : Table key) :
    (t.remove p).entries = t.entries.filter fun x => !p x := rfl

@[simp] theorem mem_remove {p : α → Bool} : x ∈ t.remove p ↔ x ∈ t ∧ p x = false := by
  rw [mem_def, entries_remove, List.mem_filter, Bool.not_eq_true', mem_def]

/-- Change the entries, but not their keys. -/
def map (f : α → α) (hf : ∀ x, key (f x) = key x) (t : Table key) : Table key where
  entries := t.entries.map f
  nodup := by
    have hkey : key ∘ f = key := funext hf
    rw [List.map_map, hkey]
    exact t.nodup

@[simp] theorem mem_map {f : α → α} {hf : ∀ x, key (f x) = key x} :
    y ∈ t.map f hf ↔ ∃ x ∈ t, f x = y :=
  List.mem_map

variable [DecidableEq κ]

/-- Put an entry in, in the place of the one with its key. -/
def replace (x : α) (t : Table key) : Table key where
  entries := x :: t.entries.filter fun y => !decide (key y = key x)
  nodup := by
    rw [List.map_cons, List.nodup_cons]
    refine ⟨fun hmem => ?_, (List.Sublist.map key List.filter_sublist).nodup t.nodup⟩
    obtain ⟨y, hy, hkey⟩ := List.mem_map.mp hmem
    have hne := (List.mem_filter.mp hy).2
    rw [decide_eq_true hkey] at hne
    exact Bool.false_ne_true hne

theorem entries_replace (x : α) (t : Table key) :
    (t.replace x).entries = x :: t.entries.filter fun y => !decide (key y = key x) := rfl

@[simp] theorem mem_replace : y ∈ t.replace x ↔ y = x ∨ y ∈ t ∧ key y ≠ key x := by
  rw [mem_def, entries_replace, List.mem_cons, List.mem_filter, Bool.not_eq_true',
    decide_eq_false_iff_not, mem_def]

end Table

/-! ## Sets of entries -/

section Sets

variable {key : α → κ} {S : Set α} {p q : α → Prop} {x y : α}

/-- Put an entry into a set, in the place of those with its key. -/
def put (key : α → κ) (x : α) (S : Set α) : Set α :=
  {y | y = x ∨ y ∈ S ∧ key y ≠ key x}

/-- Put entries in, one after the other. -/
def putAll (key : α → κ) : List α → Set α → Set α
  | [], S => S
  | x :: xs, S => putAll key xs (put key x S)

/-- Take out the entries with a property. -/
def without (p : α → Prop) (S : Set α) : Set α :=
  {y | y ∈ S ∧ ¬ p y}

@[simp] theorem mem_put : y ∈ put key x S ↔ y = x ∨ y ∈ S ∧ key y ≠ key x := Iff.rfl

@[simp] theorem mem_without : y ∈ without p S ↔ y ∈ S ∧ ¬ p y := Iff.rfl

@[simp] theorem putAll_nil : putAll key [] S = S := rfl

@[simp] theorem putAll_cons (xs : List α) :
    putAll key (x :: xs) S = putAll key xs (put key x S) := rfl

/-- To put in an entry that is there changes nothing, if it is the only one with its key. -/
theorem put_of_mem (hx : x ∈ S) (huniq : ∀ y ∈ S, key y = key x → y = x) : put key x S = S := by
  ext y
  rw [mem_put]
  constructor
  · rintro (rfl | ⟨hy, -⟩)
    · exact hx
    · exact hy
  · intro hy
    by_cases hkey : key y = key x
    · exact Or.inl (huniq y hy hkey)
    · exact Or.inr ⟨hy, hkey⟩

theorem putAll_append (xs ys : List α) :
    putAll key (xs ++ ys) S = putAll key ys (putAll key xs S) := by
  induction xs generalizing S with
  | nil => rfl
  | cons x xs ih => exact ih

/-- What is there after several entries with different keys were put in. -/
theorem mem_putAll {xs : List α} (hxs : (xs.map key).Nodup) :
    y ∈ putAll key xs S ↔ y ∈ xs ∨ y ∈ S ∧ ∀ x ∈ xs, key y ≠ key x := by
  induction xs generalizing S with
  | nil => simp
  | cons x xs ih =>
    rw [List.map_cons, List.nodup_cons] at hxs
    -- the keys behind `x` are not its own, so what is put in later does not replace it
    have hfresh : ∀ z ∈ xs, key x ≠ key z := fun z hz hkey =>
      hxs.1 (hkey ▸ List.mem_map_of_mem hz)
    rw [putAll_cons, ih hxs.2, mem_put, List.forall_mem_cons, List.mem_cons]
    constructor
    · rintro (hmem | ⟨rfl | ⟨hS, hne⟩, hrest⟩)
      · exact Or.inl (Or.inr hmem)
      · exact Or.inl (Or.inl rfl)
      · exact Or.inr ⟨hS, hne, hrest⟩
    · rintro ((rfl | hmem) | ⟨hS, hne, hrest⟩)
      · exact Or.inr ⟨Or.inl rfl, hfresh⟩
      · exact Or.inl hmem
      · exact Or.inr ⟨Or.inr ⟨hS, hne⟩, hrest⟩

/-- A table that entries are put into, one after the other. -/
theorem mem_foldl_replace [DecidableEq κ] {xs : List α} {t : Table key} :
    y ∈ xs.foldl (fun t x => t.replace x) t ↔ y ∈ putAll key xs {z | z ∈ t} := by
  induction xs generalizing t with
  | nil => exact Iff.rfl
  | cons x xs ih =>
    have hput : {z | z ∈ t.replace x} = put key x {z | z ∈ t} := Set.ext fun z => Table.mem_replace
    rw [List.foldl_cons, ih, hput, putAll_cons]

/-- Two removals, one after the other. -/
theorem without_without : without q (without p S) = without (fun y => p y ∨ q y) S := by
  ext y
  rw [mem_without, mem_without, mem_without, not_or, and_assoc]

/-- Nothing of a kind is left exactly if all of it is taken out. -/
theorem forall_mem_without : (∀ y ∈ without p S, ¬ q y) ↔ ∀ y ∈ S, q y → p y := by
  constructor
  · intro hnone y hy hq
    by_contra hp
    exact hnone y ⟨hy, hp⟩ hq
  · intro hall y hy hq
    exact hy.2 (hall y hy.1 hq)

theorem without_congr (h : ∀ y, p y ↔ q y) : without p S = without q S := by
  ext y
  rw [mem_without, mem_without, h]

/-- **Undoing.**  To take out all that was put in leaves what was there before, without what was
replaced. -/
theorem without_putAll {xs : List α} (hxs : (xs.map key).Nodup) (hp : ∀ x ∈ xs, p x) :
    without p (putAll key xs S) = without (fun y => (∃ x ∈ xs, key y = key x) ∨ p y) S := by
  ext y
  rw [mem_without, mem_without, mem_putAll hxs, not_or, ← and_assoc]
  refine and_congr_left fun hy => ⟨?_, ?_⟩
  · rintro (hmem | ⟨hS, hne⟩)
    · exact absurd (hp y hmem) hy
    · exact ⟨hS, fun ⟨x, hx, hkey⟩ => hne x hx hkey⟩
  · rintro ⟨hS, hne⟩
    exact Or.inr ⟨hS, fun x hx hkey => hne ⟨x, hx, hkey⟩⟩

/-! ## Confined changes -/

/-- A change of a set is confined: only what is in `p` may go, and only what is in `q` may come. -/
structure Confined (p q : α → Prop) (S S' : Set α) : Prop where
  new : ∀ y ∈ S', y ∈ S ∨ q y
  keep : ∀ y ∈ S, ¬ p y → y ∈ S'

namespace Confined

variable {p' q' : α → Prop} {S' S'' : Set α}

theorem refl (p q : α → Prop) (S : Set α) : Confined p q S S :=
  ⟨fun _ hy => Or.inl hy, fun _ hy _ => hy⟩

theorem trans (h : Confined p q S S') (h' : Confined p q S' S'') : Confined p q S S'' where
  new y hy := by
    rcases h'.new y hy with hy' | hq
    · exact h.new y hy'
    · exact Or.inr hq
  keep y hy hp := h'.keep y (h.keep y hy hp) hp

theorem mono (hp : ∀ y, p y → p' y) (hq : ∀ y, q y → q' y) (h : Confined p q S S') :
    Confined p' q' S S' where
  new y hy := (h.new y hy).imp_right (hq y)
  keep y hy hnot := h.keep y hy fun hy' => hnot (hp y hy')

/-- To put entries in is confined to them and to what has their keys. -/
theorem putAll {xs : List α} (hxs : (xs.map key).Nodup) (hp : ∀ y, ∀ x ∈ xs, key y = key x → p y)
    (hq : ∀ x ∈ xs, q x) : Confined p q S (putAll key xs S) where
  new y hy := by
    rcases (mem_putAll hxs).mp hy with hmem | ⟨hS, -⟩
    · exact Or.inr (hq y hmem)
    · exact Or.inl hS
  keep y hy hnot := (mem_putAll hxs).mpr (Or.inr ⟨hy, fun x hx hkey => hnot (hp y x hx hkey)⟩)

/-- To take entries out is confined to them. -/
theorem without {r : α → Prop} (hp : ∀ y, r y → p y) : Confined p q S (without r S) where
  new _ hy := Or.inl hy.1
  keep y hy hnot := ⟨hy, fun hr => hnot (hp y hr)⟩

end Confined

end Sets

end KeyedTable
