import Mathlib.Data.Nat.Notation
import Mathlib.Logic.Function.Basic

/-!
# A directory on a file system that may crash

A directory leads from names to files, and a file has its bytes.  What makes programs that replace a
file hard to get right is that the two change separately.

* A file that is opened for writing under a name that exists is the same file, emptied.
* A name that is moved leads to the file that the other name led to, whoever still writes to it.
* Bytes that are written are in memory.  They are on the disk once the file was synced; after a
  crash, a file that was not may have any bytes.
* Changes of the directory reach the disk in their order, but when they do so is open.  After a
  crash the directory is one of those that it has been since the crash before (`FS.past`).

Files are numbered, and a new one gets a number that no directory has led to.

## Scratch names

The usual way to replace a file is to write another one under a scratch name, to sync it, and to
move it.  What keeps the other names safe is one invariant (`Scratch`): the file under the scratch
name is under no other name, now or in a directory that a crash may bring back, and the files under
other names are on the disk.  Every operation on the scratch name keeps it, with one condition: what
is moved was synced.
-/

namespace FileSystem

/-- A directory with names `ν`, on its file system. -/
structure FS (ν : Type) where
  /-- The file that a name leads to. -/
  dir : ν → Option ℕ
  /-- The directories that a crash may bring back. -/
  past : List (ν → Option ℕ)
  files : ℕ → List UInt8
  /-- All bytes of the file are on the disk. -/
  clean : ℕ → Bool
  next : ℕ
  dir_mem : dir ∈ past
  past_lt : ∀ d ∈ past, ∀ a i, d a = some i → i < next

namespace FS

variable {ν : Type}

theorem dir_lt (fs : FS ν) {a : ν} {i : ℕ} (h : fs.dir a = some i) : i < fs.next :=
  fs.past_lt fs.dir fs.dir_mem a i h

/-- The bytes under a name. -/
def read (fs : FS ν) (a : ν) : Option (List UInt8) :=
  (fs.dir a).map fs.files

/-- The directory changes. -/
def setDir (fs : FS ν) (d : ν → Option ℕ) (hd : ∀ a i, d a = some i → i < fs.next) : FS ν :=
  { fs with
    dir := d
    past := d :: fs.past
    dir_mem := List.mem_cons_self
    past_lt := List.forall_mem_cons.mpr ⟨hd, fs.past_lt⟩ }

/-- The bytes of a file change. -/
def setFile (fs : FS ν) (i : ℕ) (bs : List UInt8) : FS ν :=
  { fs with
    files := Function.update fs.files i bs
    clean := Function.update fs.clean i false }

/-- Room for one more file. -/
def grow (fs : FS ν) : FS ν :=
  { fs with
    next := fs.next + 1
    past_lt := fun d hd a i h => Nat.lt_succ_of_lt (fs.past_lt d hd a i h) }

/-- `write` at the end of a file. -/
def append (fs : FS ν) (i : ℕ) (bs : List UInt8) : FS ν :=
  fs.setFile i (fs.files i ++ bs)

/-- `fsync`. -/
def sync (fs : FS ν) (i : ℕ) : FS ν :=
  { fs with clean := Function.update fs.clean i true }

theorem sync_clean (fs : FS ν) (i : ℕ) : (fs.sync i).clean = Function.update fs.clean i true := rfl

/-- A crash: the directory is the `k`-th of the past, and a file that was not synced has the bytes
`junk`. -/
def crash (fs : FS ν) (k : ℕ) (junk : ℕ → List UInt8) : FS ν where
  dir := fs.past[k]?.getD fs.dir
  past := [fs.past[k]?.getD fs.dir]
  files i := if fs.clean i then fs.files i else junk i
  clean _ := true
  next := fs.next
  dir_mem := List.mem_singleton_self _
  past_lt := by
    intro d hd a i h
    rw [List.mem_singleton.mp hd] at h
    cases hk : fs.past[k]? with
    | none =>
      rw [hk] at h
      exact fs.dir_lt h
    | some d' =>
      rw [hk] at h
      exact fs.past_lt d' (List.mem_of_getElem? hk) a i h

theorem crash_dir_mem (fs : FS ν) (k : ℕ) : fs.past[k]?.getD fs.dir ∈ fs.past := by
  cases hk : fs.past[k]? with
  | none => exact fs.dir_mem
  | some d => exact List.mem_of_getElem? hk

variable [DecidableEq ν]

/-- A new file under a name. -/
def create (fs : FS ν) (a : ν) : FS ν :=
  fs.grow.setDir (Function.update fs.dir a (some fs.next)) (by
    intro b i h
    rw [Function.update_apply] at h
    split at h
    · cases h
      exact Nat.lt_succ_self _
    · exact Nat.lt_succ_of_lt (fs.dir_lt h))

/-- `open` with `O_CREAT` and `O_TRUNC`: the file, and the file system with it. -/
def openTrunc (fs : FS ν) (a : ν) : ℕ × FS ν :=
  match fs.dir a with
  | some i => (i, fs.setFile i [])
  | none => (fs.next, (fs.create a).setFile fs.next [])

/-- `unlink`. -/
def unlink (fs : FS ν) (a : ν) : FS ν :=
  fs.setDir (Function.update fs.dir a none) (by
    intro b i h
    rw [Function.update_apply] at h
    split at h
    · cases h
    · exact fs.dir_lt h)

/-- The file under `a` is now under `b`. -/
def move (fs : FS ν) (a b : ν) : FS ν :=
  fs.setDir (Function.update (Function.update fs.dir b (fs.dir a)) a none) (by
    intro c i h
    rw [Function.update_apply] at h
    split at h
    · cases h
    · rw [Function.update_apply] at h
      split at h
      · exact fs.dir_lt h
      · exact fs.dir_lt h)

theorem move_dir (fs : FS ν) (a b : ν) :
    (fs.move a b).dir = Function.update (Function.update fs.dir b (fs.dir a)) a none := rfl

/-- `rename`, which fails if there is nothing under the name. -/
def rename (fs : FS ν) (a b : ν) : Option (FS ν) :=
  if (fs.dir a).isSome then some (fs.move a b) else none

/-- A directory after a start: each name has a file of its own, and all is on the disk. -/
def ofFiles (xs : List (ν × List UInt8)) : FS ν where
  dir a := xs.findIdx? fun x => x.1 = a
  past := [fun a => xs.findIdx? fun x => x.1 = a]
  files i := (xs[i]?.map Prod.snd).getD []
  clean _ := true
  next := xs.length
  dir_mem := List.mem_singleton_self _
  past_lt d hd a i h := by
    rw [List.mem_singleton.mp hd] at h
    exact (List.findIdx?_eq_some_iff_getElem.mp h).1

theorem ofFiles_inj {xs : List (ν × List UInt8)} {a b : ν} {i : ℕ}
    (ha : (ofFiles xs).dir a = some i) (hb : (ofFiles xs).dir b = some i) : a = b := by
  obtain ⟨_, hia, -⟩ := List.findIdx?_eq_some_iff_getElem.mp ha
  obtain ⟨_, hib, -⟩ := List.findIdx?_eq_some_iff_getElem.mp hb
  exact (of_decide_eq_true hia).symm.trans (of_decide_eq_true hib)

end FS

section Scratch

variable {ν : Type} {t : ν} {good : ν → Option (List UInt8) → Prop} {fs : FS ν} {i : ℕ}

/-- The scratch name `t` can be written to without harm to the other names, and what is under each
of them is `good`, now and after a crash. -/
structure Scratch (t : ν) (good : ν → Option (List UInt8) → Prop) (fs : FS ν) : Prop where
  good : ∀ d ∈ fs.past, ∀ a, a ≠ t → good a ((d a).map fs.files)
  clean : ∀ d ∈ fs.past, ∀ a, a ≠ t → ∀ i, d a = some i → fs.clean i = true
  apart : ∀ d ∈ fs.past, ∀ a, a ≠ t → ∀ i, d a = some i → fs.dir t ≠ some i ∧ d t ≠ some i

/-- The file `i` is under no name but the scratch name. -/
def Private (t : ν) (fs : FS ν) (i : ℕ) : Prop :=
  ∀ d ∈ fs.past, ∀ a, a ≠ t → d a ≠ some i

/-- What a program that has a file of another name open can rely on: its bytes stay. -/
structure Keeps (t : ν) (fs fs' : FS ν) : Prop where
  past : ∀ d ∈ fs.past, d ∈ fs'.past
  files : ∀ d ∈ fs.past, ∀ a, a ≠ t → ∀ i, d a = some i → fs'.files i = fs.files i

theorem Keeps.refl (t : ν) (fs : FS ν) : Keeps t fs fs :=
  ⟨fun _ hd => hd, fun _ _ _ _ _ _ => rfl⟩

theorem Keeps.trans {fs₁ fs₂ fs₃ : FS ν} (h : Keeps t fs₁ fs₂) (h' : Keeps t fs₂ fs₃) :
    Keeps t fs₁ fs₃ :=
  ⟨fun d hd => h'.past d (h.past d hd), fun d hd a ha i hi =>
    (h'.files d (h.past d hd) a ha i hi).trans (h.files d hd a ha i hi)⟩

theorem Keeps.read_eq {fs' : FS ν} (h : Keeps t fs fs') {a : ν} (ha : a ≠ t)
    (hdir : fs'.dir a = fs.dir a) : fs'.read a = fs.read a := by
  rw [FS.read, FS.read, hdir]
  cases hi : fs.dir a with
  | none => rfl
  | some i => exact congrArg some (h.files fs.dir fs.dir_mem a ha i hi)

namespace Scratch

/-- Any name of such a directory may be used as a scratch name. -/
theorem ofFiles [DecidableEq ν] (t : ν) (xs : List (ν × List UInt8)) :
    Scratch t (fun a bs => bs = (FS.ofFiles xs).read a) (FS.ofFiles xs) where
  good d hd a _ := by
    rw [List.mem_singleton.mp hd]
    rfl
  clean _ _ _ _ _ _ := rfl
  apart d hd a ha i hi := by
    rw [List.mem_singleton.mp hd] at hi ⊢
    exact ⟨fun ht => ha (FS.ofFiles_inj hi ht), fun ht => ha (FS.ofFiles_inj hi ht)⟩

theorem mono {good' : ν → Option (List UInt8) → Prop} (h : Scratch t good fs)
    (hgood : ∀ a bs, good a bs → good' a bs) : Scratch t good' fs :=
  ⟨fun d hd a ha => hgood a _ (h.good d hd a ha), h.clean, h.apart⟩

theorem good_read (h : Scratch t good fs) {a : ν} (ha : a ≠ t) : good a (fs.read a) :=
  h.good fs.dir fs.dir_mem a ha

theorem private_dir (h : Scratch t good fs) (hi : fs.dir t = some i) : Private t fs i :=
  fun d hd a ha hdi => (h.apart d hd a ha i hdi).1 hi

/-- The bytes of a file of another name are not those that are written. -/
theorem update_of_private {β : Type} (f : ℕ → β) (y : β) (hi : Private t fs i)
    {d : ν → Option ℕ} (hd : d ∈ fs.past) {a : ν} (ha : a ≠ t) {j : ℕ} (hj : d a = some j) :
    Function.update f i y j = f j := by
  refine Function.update_of_ne ?_ _ _
  rintro rfl
  exact hi d hd a ha hj

theorem map_update (f : ℕ → List UInt8) (bs : List UInt8) (hi : Private t fs i)
    {d : ν → Option ℕ} (hd : d ∈ fs.past) {a : ν} (ha : a ≠ t) :
    (d a).map (Function.update f i bs) = (d a).map f := by
  cases hj : d a with
  | none => rfl
  | some j => exact congrArg some (update_of_private f bs hi hd ha hj)

theorem setFile (h : Scratch t good fs) (hi : Private t fs i) (bs : List UInt8) :
    Scratch t good (fs.setFile i bs) where
  good d hd a ha := by
    have hmap : (d a).map (fs.setFile i bs).files = (d a).map fs.files :=
      map_update fs.files bs hi hd ha
    rw [hmap]
    exact h.good d hd a ha
  clean d hd a ha j hj :=
    (update_of_private fs.clean false hi hd ha hj).trans (h.clean d hd a ha j hj)
  apart := h.apart

theorem keeps_setFile (hi : Private t fs i) (bs : List UInt8) : Keeps t fs (fs.setFile i bs) :=
  ⟨fun _ hd => hd, fun _ hd _ ha _ hj => update_of_private fs.files bs hi hd ha hj⟩

theorem sync (h : Scratch t good fs) (i : ℕ) : Scratch t good (fs.sync i) where
  good := h.good
  clean d hd a ha j hj := by
    have hj' := h.clean d hd a ha j hj
    rw [FS.sync_clean, Function.update_apply]
    split
    · rfl
    · exact hj'
  apart := h.apart

theorem keeps_sync (i : ℕ) : Keeps t fs (fs.sync i) :=
  ⟨fun _ hd => hd, fun _ _ _ _ _ _ => rfl⟩

/-- A change of the directory, after which the scratch name leads nowhere, or to a file that is
under no other name. -/
theorem setDir (h : Scratch t good fs) {d : ν → Option ℕ} (hd : ∀ a i, d a = some i → i < fs.next)
    (hgood : ∀ a, a ≠ t → good a ((d a).map fs.files))
    (hclean : ∀ a, a ≠ t → ∀ i, d a = some i → fs.clean i = true)
    (hapart : ∀ e ∈ d :: fs.past, ∀ a, a ≠ t → ∀ i, e a = some i → d t ≠ some i) :
    Scratch t good (fs.setDir d hd) where
  good := List.forall_mem_cons.mpr ⟨hgood, h.good⟩
  clean := List.forall_mem_cons.mpr ⟨hclean, h.clean⟩
  apart e he a ha i hi := by
    refine ⟨hapart e he a ha i hi, ?_⟩
    rcases List.mem_cons.mp he with rfl | he'
    · exact hapart e he a ha i hi
    · exact (h.apart e he' a ha i hi).2

theorem keeps_of_cons {fs' : FS ν} {d : ν → Option ℕ} (hpast : fs'.past = d :: fs.past)
    (hfiles : fs'.files = fs.files) : Keeps t fs fs' :=
  ⟨fun _ he => hpast ▸ List.mem_cons_of_mem d he, fun _ _ _ _ _ _ => by rw [hfiles]⟩

/-- **Crashes.**  The names that are not the scratch name lead to good files again. -/
theorem crash (h : Scratch t good fs) (k : ℕ) (junk : ℕ → List UInt8) :
    Scratch t good (fs.crash k junk) where
  good d hd a ha := by
    obtain rfl := List.mem_singleton.mp hd
    have hmem := fs.crash_dir_mem k
    have hfiles : (fs.past[k]?.getD fs.dir a).map (fs.crash k junk).files
        = (fs.past[k]?.getD fs.dir a).map fs.files := by
      cases hj : fs.past[k]?.getD fs.dir a with
      | none => rfl
      | some j => exact congrArg some (if_pos (h.clean _ hmem a ha j hj))
    rw [hfiles]
    exact h.good _ hmem a ha
  clean _ _ _ _ _ _ := rfl
  apart d hd a ha i hi := by
    obtain rfl := List.mem_singleton.mp hd
    have hne := (h.apart _ (fs.crash_dir_mem k) a ha i hi).2
    exact ⟨hne, hne⟩

theorem grow (h : Scratch t good fs) : Scratch t good fs.grow :=
  ⟨h.good, h.clean, h.apart⟩

variable [DecidableEq ν]

theorem private_next (t : ν) (fs : FS ν) : Private t (fs.create t) fs.next := by
  intro d hd a ha hda
  rcases List.mem_cons.mp hd with rfl | hd'
  · rw [Function.update_of_ne ha] at hda
    exact absurd (fs.dir_lt hda) (Nat.lt_irrefl _)
  · exact absurd (fs.past_lt d hd' a _ hda) (Nat.lt_irrefl _)

theorem create (h : Scratch t good fs) : Scratch t good (fs.create t) := by
  refine h.grow.setDir _ (fun a ha => ?_) (fun a ha i hi => ?_) fun e he a ha i hi hti => ?_
  · rw [Function.update_of_ne ha]
    exact h.good_read ha
  · rw [Function.update_of_ne ha] at hi
    exact h.clean _ fs.dir_mem a ha i hi
  · rw [Function.update_self] at hti
    obtain rfl := Option.some.inj hti
    exact private_next t fs e he a ha hi

theorem openTrunc (h : Scratch t good fs) : Scratch t good (fs.openTrunc t).2 := by
  rw [FS.openTrunc]
  split
  · next i hi => exact h.setFile (h.private_dir hi) []
  · exact h.create.setFile (private_next t fs) []

theorem keeps_openTrunc (h : Scratch t good fs) : Keeps t fs (fs.openTrunc t).2 := by
  rw [FS.openTrunc]
  split
  · next i hi => exact keeps_setFile (h.private_dir hi) []
  · have hcreate : Keeps t fs (fs.create t) := keeps_of_cons rfl rfl
    exact hcreate.trans (keeps_setFile (private_next t fs) [])

theorem unlink (h : Scratch t good fs) : Scratch t good (fs.unlink t) := by
  refine h.setDir _ (fun a ha => ?_) (fun a ha i hi => ?_) fun e _ a _ i _ hti => ?_
  · rw [Function.update_of_ne ha]
    exact h.good_read ha
  · rw [Function.update_of_ne ha] at hi
    exact h.clean _ fs.dir_mem a ha i hi
  · rw [Function.update_self] at hti
    cases hti

/-- **Replacing.**  The scratch file may be moved to another name if it was synced and is good
there. -/
theorem move (h : Scratch t good fs) {b : ν} (hi : fs.dir t = some i) (hclean : fs.clean i = true)
    (hgood : good b (some (fs.files i))) : Scratch t good (fs.move t b) := by
  refine h.setDir _ (fun a ha => ?_) (fun a ha j hj => ?_) fun e _ a _ j _ htj => ?_
  · rw [Function.update_of_ne ha, Function.update_apply]
    split
    · next hab =>
      rw [hab, hi]
      exact hgood
    · exact h.good_read ha
  · rw [Function.update_of_ne ha, Function.update_apply] at hj
    split at hj
    · obtain rfl := Option.some.inj (hi.symm.trans hj)
      exact hclean
    · exact h.clean _ fs.dir_mem a ha j hj
  · rw [Function.update_self] at htj
    cases htj

end Scratch

end Scratch

namespace FS

variable {ν : Type} [DecidableEq ν]

theorem openTrunc_dir (fs : FS ν) {a t : ν} (ha : a ≠ t) :
    (fs.openTrunc t).2.dir a = fs.dir a := by
  rw [openTrunc]
  split
  · rfl
  · exact Function.update_of_ne ha _ _

/-- What `open` leads to: an empty file under the name. -/
theorem openTrunc_spec (fs : FS ν) (t : ν) :
    (fs.openTrunc t).2.dir t = some (fs.openTrunc t).1 ∧
      (fs.openTrunc t).2.files (fs.openTrunc t).1 = [] := by
  rw [openTrunc]
  split
  · next i hi => exact ⟨hi, Function.update_self _ _ _⟩
  · exact ⟨Function.update_self _ _ _, Function.update_self _ _ _⟩

theorem read_move (fs : FS ν) {a b : ν} (hab : b ≠ a) : (fs.move a b).read b = fs.read a := by
  have hdir : (fs.move a b).dir b = fs.dir a := by
    rw [move_dir, Function.update_of_ne hab, Function.update_self]
  rw [read, hdir]
  rfl

end FS

end FileSystem
