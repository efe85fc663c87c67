import CiliumClat.Plugin.Installer
import Mathlib.Data.Fintype.Basic

/-!
# The runtime never executes a partial binary

The comment on `install` says what the detour over a temporary name is for: the runtime never
executes a partial binary.  This module says what that takes.

1. `install_atomic`: with one installer at a time, the name of the plugin leads to the old binary or
   to a whole new one, through every failed call, every killed installer and every loss of power,
   and the other plugins in the directory are not touched.  The name changes with the rename, which
   comes before the installer reports it, and an installer that reports success has renamed.
2. `install_never_partial`: nor do the bytes change under a runtime that has the plugin open.
3. `install_overlap`: with two installers at once none of this is true, and nothing has to fail for
   it.

## Why the sync matters, and why one installer matters

Behind 1 and 2 is the invariant of scratch names (`FileSystem.Scratch`): no other name leads to the
file under the temporary name, and the files under the other names are on the disk.  A rename is the
one call that could break it, and it does not because `dst.Sync()` came before.  Nothing syncs the
directory itself, so a loss of power may take a reported success back; it brings back a whole old
binary then.

That the file was synced, and that it has all bytes, are facts about the file that *this* installer
has opened (`Holds`).  The name is moved, not the file: if another installer has opened the name in
the meantime, it has emptied the very file that is about to be moved.
-/

namespace CiliumClat.Plugin

open EventMachine FileSystem

variable {t : Target} {fs : FS String} {x : Installer} {good : String → Option (List UInt8) → Prop}

theorem Target.final_ne_tmp (t : Target) : t.final ≠ t.tmp := by
  intro heq
  have hlength := congrArg String.length heq
  simp only [final, tmp, String.length_append] at hlength
  have hdot : ".".length = 1 := rfl
  omega

/-! ## One call -/

/-- The installer has a file under the temporary name. -/
def Stage.active : Stage → Bool
  | .copy _ _ | .sync _ | .close | .rename | .remove _ => true
  | _ => false

/-- What an installer can say of that file. -/
def Holds (t : Target) (fs : FS String) (binary : List UInt8) : Stage → Prop
  | .copy dst rest => fs.dir t.tmp = some dst ∧ fs.files dst ++ rest = binary
  | .sync dst => fs.dir t.tmp = some dst ∧ fs.files dst = binary
  | .close | .rename =>
    ∃ dst, fs.dir t.tmp = some dst ∧ fs.files dst = binary ∧ fs.clean dst = true
  | _ => True

theorem holds_of_not_active {binary : List UInt8} {stage : Stage} (h : stage.active = false) :
    Holds t fs binary stage := by
  cases stage with
  | copy _ _ | sync _ | close | rename => cases h
  | _ => trivial

/-- What a call leaves, if the scratch file is the installer's own. -/
structure Sound (t : Target) (good : String → Option (List UInt8) → Prop) (x : Installer)
    (fs : FS String) (c : Step) : Prop where
  scratch : Scratch t.tmp good c.fs
  keeps : Keeps t.tmp fs c.fs
  holds : Holds t c.fs x.binary c.stage
  final : c.fs.read t.final =
    if c.notice = some .renamed then some x.binary else fs.read t.final

/-- A call after which the name of the plugin leads to the same file. -/
theorem Sound.quiet {c : Step} (hs : Scratch t.tmp good c.fs) (hk : Keeps t.tmp fs c.fs)
    (hdir : c.fs.dir t.final = fs.dir t.final) (hh : Holds t c.fs x.binary c.stage)
    (hn : c.notice ≠ some .renamed) : Sound t good x fs c :=
  ⟨hs, hk, hh, by rw [if_neg hn, hk.read_eq t.final_ne_tmp hdir]⟩

/-- A call that leaves the files alone. -/
theorem Sound.same {stage : Stage} {notice : Option Notice} (hs : Scratch t.tmp good fs)
    (hh : Holds t fs x.binary stage) (hn : notice ≠ some .renamed) :
    Sound t good x fs ⟨fs, stage, notice⟩ :=
  .quiet hs (.refl _ _) rfl hh hn

theorem sound_openTmp (hs : Scratch t.tmp good fs) :
    Sound t good x fs
      ⟨(fs.openTrunc t.tmp).2, .copy (fs.openTrunc t.tmp).1 x.binary, none⟩ := by
  obtain ⟨hdir, hempty⟩ := fs.openTrunc_spec t.tmp
  refine .quiet hs.openTrunc hs.keeps_openTrunc (fs.openTrunc_dir t.final_ne_tmp) ⟨hdir, ?_⟩
    (by simp)
  rw [hempty, List.nil_append]

theorem sound_append {dst n : ℕ} {rest : List UInt8} (hs : Scratch t.tmp good fs)
    (hx : Holds t fs x.binary (.copy dst rest)) :
    Sound t good x fs ⟨fs.append dst (rest.take n), .copy dst (rest.drop n), none⟩ := by
  obtain ⟨hdir, hbytes⟩ := hx
  have hown := hs.private_dir hdir
  refine .quiet (hs.setFile hown _) (Scratch.keeps_setFile hown _) rfl ⟨hdir, ?_⟩ (by simp)
  have hfile : (fs.append dst (rest.take n)).files dst = fs.files dst ++ rest.take n :=
    Function.update_self _ _ _
  rw [hfile, List.append_assoc, List.take_append_drop, hbytes]

theorem sound_sync {dst : ℕ} (hs : Scratch t.tmp good fs)
    (hx : Holds t fs x.binary (.sync dst)) : Sound t good x fs ⟨fs.sync dst, .close, none⟩ :=
  .quiet (hs.sync dst) (Scratch.keeps_sync dst) rfl
    ⟨dst, hx.1, hx.2, Function.update_self _ _ _⟩ (by simp)

theorem sound_remove {err : String} (hs : Scratch t.tmp good fs) :
    Sound t good x fs ⟨fs.unlink t.tmp, .print (failed err), none⟩ :=
  .quiet hs.unlink (Scratch.keeps_of_cons rfl rfl) (Function.update_of_ne t.final_ne_tmp _ _)
    trivial (by simp)

theorem sound_rename (hs : Scratch t.tmp good fs) (hx : Holds t fs x.binary .rename)
    (hgood : good t.final (some x.binary)) :
    Sound t good x fs ⟨fs.move t.tmp t.final, .print t.installed, some .renamed⟩ := by
  obtain ⟨dst, hdir, hbytes, hclean⟩ := hx
  refine ⟨hs.move hdir hclean (hbytes ▸ hgood), Scratch.keeps_of_cons rfl rfl, trivial, ?_⟩
  rw [fs.read_move t.final_ne_tmp, FS.read, hdir, Option.map_some, hbytes]
  rfl

/-- **One call.**  The installer that has the scratch file to itself harms no other name, and the
name of the plugin changes with the rename. -/
theorem sound_call (hs : Scratch t.tmp good fs) (hx : Holds t fs x.binary x.stage) (r : Reply)
    (hgood : (x.call t fs r).notice = some .renamed → good t.final (some x.binary)) :
    Sound t good x fs (x.call t fs r) := by
  obtain ⟨binary, stage⟩ := x
  cases r with
  | fails e =>
    cases stage with
    | exit code => exact .same hs trivial (by simp)
    | _ => exact .same hs trivial (by simp)
  | ok n =>
    cases stage with
    | parse | executable | mkdirAll | openSelf | exited | killed => exact .same hs trivial (by simp)
    | print out => exact .same hs trivial (by simp)
    | exit code => exact .same hs trivial (by simp)
    | openTmp => exact sound_openTmp hs
    | copy dst rest =>
      cases rest with
      | nil =>
        refine .same hs ⟨hx.1, ?_⟩ (by simp)
        rw [← hx.2, List.append_nil]
      | cons b rest => exact sound_append hs hx
    | sync dst => exact sound_sync hs hx
    | close => exact .same hs hx (by simp)
    | remove err => exact sound_remove hs
    | rename =>
      obtain ⟨dst, hdir, -⟩ := id hx
      have hrename : fs.rename t.tmp t.final = some (fs.move t.tmp t.final) := by
        rw [FS.rename, hdir]
        rfl
      have hcall : Installer.call t ⟨binary, .rename⟩ fs (.ok n)
          = ⟨fs.move t.tmp t.final, .print t.installed, some .renamed⟩ := by
        simp only [Installer.call, hrename]
      rw [hcall] at hgood ⊢
      exact sound_rename hs hx (hgood rfl)

/-- An installer that has no file under the temporary name, and does not open one, leaves the files
alone. -/
theorem call_fs_of_not_active (hactive : x.stage.active = false) (hopen : x.stage ≠ .openTmp)
    (r : Reply) : (x.call t fs r).fs = fs ∧ (x.call t fs r).stage.active = false := by
  obtain ⟨binary, stage⟩ := x
  cases stage with
  | openTmp => exact absurd rfl hopen
  | copy _ _ | sync _ | close | rename | remove _ => cases hactive
  | _ =>
    cases r with
    | ok n => exact ⟨rfl, rfl⟩
    | fails e => exact ⟨rfl, rfl⟩

/-- The installer has renamed, and is about to say so. -/
def Stage.succeeds : Stage → Bool
  | .print out => out.code = 0
  | .exit code => code = 0
  | _ => false

/-- What an installer does only if it has renamed. -/
def Notice.succeeds : Notice → Bool
  | .renamed => true
  | .printed out => out.code = 0
  | .exited code => code = 0

/-- An installer comes to report success by its rename, and reports it only if it has come to. -/
theorem succeeds_call (x : Installer) (fs : FS String) (r : Reply) :
    ((x.call t fs r).stage.succeeds = true →
        x.stage.succeeds = true ∨ (x.call t fs r).notice = some .renamed) ∧
      ∀ n, (x.call t fs r).notice = some n → n.succeeds = true →
        x.stage.succeeds = true ∨ n = .renamed := by
  obtain ⟨binary, stage⟩ := x
  cases r with
  | fails e => cases stage <;> simp [Installer.call, Stage.succeeds, Notice.succeeds, failed]
  | ok n =>
    cases stage with
    | rename =>
      rw [Installer.call]
      cases fs.rename t.tmp t.final <;> simp [Stage.succeeds]
    | copy dst rest => cases rest <;> simp [Installer.call, Stage.succeeds]
    | _ => simp [Installer.call, Stage.succeeds, Notice.succeeds, failed]

/-! ## Any number of installers -/

section Invariant

variable {ι : Type} {s s₀ : BinDir ι} {as as' : List (ι × Notice)}

/-- Nobody opens the temporary name while another installer has a file under it.  An installer that
was killed has not. -/
def Exclusive (s : BinDir ι) : DirEvent ι → Prop
  | .call p _ => (s.procs p).stage = .openTmp → ∀ q, q ≠ p → (s.procs q).stage.active = false
  | .kill _ => True
  | .crash _ _ => True

/-- The directory before the first installer: what a crash may bring back differs in the scratch
name only, and the file under that name, if one was left, is its own. -/
structure Ready (t : Target) (s : BinDir ι) : Prop where
  scratch : Scratch t.tmp (fun a bs => bs = s.fs.read a) s.fs
  idle : ∀ p, (s.procs p).stage = .parse

/-- What may be under a name: what was there before, or, under the name of the plugin, the binary of
an installer that has renamed. -/
def Good (t : Target) (s₀ : BinDir ι) (as : List (ι × Notice)) (a : String)
    (bs : Option (List UInt8)) : Prop :=
  bs = s₀.fs.read a ∨ a = t.final ∧ ∃ p, (p, .renamed) ∈ as ∧ bs = some (s₀.procs p).binary

theorem Good.append {a : String} {bs : Option (List UInt8)} (h : Good t s₀ as a bs)
    (as' : List (ι × Notice)) : Good t s₀ (as ++ as') a bs := by
  rcases h with hold | ⟨ha, p, hmem, hbs⟩
  · exact Or.inl hold
  · exact Or.inr ⟨ha, p, List.mem_append_left as' hmem, hbs⟩

instance [Fintype ι] [DecidableEq ι] (s : BinDir ι) : ∀ e, Decidable (Exclusive s e)
  | .call p _ => inferInstanceAs (Decidable ((s.procs p).stage = .openTmp →
      ∀ q, q ≠ p → (s.procs q).stage.active = false))
  | .kill _ => .isTrue trivial
  | .crash _ _ => .isTrue trivial

/-- The node loses power. -/
def DirEvent.isCrash : DirEvent ι → Bool
  | .crash _ _ => true
  | _ => false

/-- Replacing a binary at once: what is under the name of the plugin once an installer has
renamed. -/
def BinDir.replace (s : BinDir ι) (bs : Option (List UInt8)) (a : ι × Notice) :
    Option (List UInt8) :=
  if a.2 = .renamed then some (s.procs a.1).binary else bs

/-- What holds along a run. -/
structure Safe (t : Target) (s₀ s : BinDir ι) (as : List (ι × Notice)) : Prop where
  scratch : Scratch t.tmp (Good t s₀ as) s.fs
  binary : ∀ p, (s.procs p).binary = (s₀.procs p).binary
  one : ∀ p q, (s.procs p).stage.active = true → (s.procs q).stage.active = true → p = q
  holds : ∀ p, Holds t s.fs (s.procs p).binary (s.procs p).stage

theorem Ready.safe (h : Ready t s) : Safe t s s [] where
  scratch := h.scratch.mono fun _ _ hbs => Or.inl hbs
  binary _ := rfl
  one p _ hp := by
    rw [h.idle p] at hp
    cases hp
  holds p := by
    rw [h.idle p]
    trivial

/-- Who reports success, or ends with it, has renamed. -/
structure Honest (s : BinDir ι) (as : List (ι × Notice)) : Prop where
  stage : ∀ p, (s.procs p).stage.succeeds = true → (p, .renamed) ∈ as
  notice : ∀ p n, (p, n) ∈ as → n.succeeds = true → (p, .renamed) ∈ as

theorem Ready.honest (h : Ready t s) : Honest s [] where
  stage p hp := by
    rw [h.idle p] at hp
    cases hp
  notice _ _ hmem := absurd hmem List.not_mem_nil

theorem active_kill (stage : Stage) : stage.kill.active = false := by
  cases stage <;> rfl

theorem active_crash (stage : Stage) : stage.crash.active = false := by
  cases stage <;> rfl

variable [DecidableEq ι]

theorem BinDir.setStage_self (s : BinDir ι) (fs : FS String) (p : ι) (stage : Stage) :
    (s.setStage fs p stage).procs p = ⟨(s.procs p).binary, stage⟩ :=
  Function.update_self _ _ _

theorem BinDir.setStage_of_ne (s : BinDir ι) (fs : FS String) {p q : ι} (hq : q ≠ p)
    (stage : Stage) : (s.setStage fs p stage).procs q = s.procs q :=
  Function.update_of_ne hq _ _

theorem BinDir.setStage_setStage (s : BinDir ι) (fs fs' : FS String) (p : ι)
    (stage stage' : Stage) :
    (s.setStage fs p stage).setStage fs' p stage' = s.setStage fs' p stage' := by
  rw [setStage, s.setStage_self, setStage, Function.update_idem, setStage]

namespace Safe

/-- One installer goes on.  If another one has a file under the temporary name, then this one leaves
the files alone. -/
theorem setStage (h : Safe t s₀ s as) {fs' : FS String} {p : ι} {stage : Stage}
    (hscratch : Scratch t.tmp (Good t s₀ as') fs')
    (hholds : Holds t fs' (s.procs p).binary stage)
    (hother : ∀ q, q ≠ p → (s.procs q).stage.active = true → fs' = s.fs ∧ stage.active = false) :
    Safe t s₀ (s.setStage fs' p stage) as' where
  scratch := hscratch
  binary q := by
    rcases eq_or_ne q p with rfl | hq
    · rw [s.setStage_self]
      exact h.binary q
    · rw [s.setStage_of_ne fs' hq]
      exact h.binary q
  one q q' hqa hqa' := by
    have hmoved : ∀ r, r ≠ p → ((s.setStage fs' p stage).procs r).stage.active = true →
        (s.procs r).stage.active = true ∧ stage.active = false := by
      intro r hr hra
      rw [s.setStage_of_ne fs' hr] at hra
      exact ⟨hra, (hother r hr hra).2⟩
    rcases eq_or_ne q p with hq | hq <;> rcases eq_or_ne q' p with hq' | hq'
    · exact hq.trans hq'.symm
    · rw [hq, s.setStage_self, (hmoved q' hq' hqa').2] at hqa
      cases hqa
    · rw [hq', s.setStage_self, (hmoved q hq hqa).2] at hqa'
      cases hqa'
    · exact h.one q q' (hmoved q hq hqa).1 (hmoved q' hq' hqa').1
  holds q := by
    rcases eq_or_ne q p with rfl | hq
    · rw [s.setStage_self]
      exact hholds
    · rw [s.setStage_of_ne fs' hq]
      cases hqa : (s.procs q).stage.active with
      | false => exact holds_of_not_active hqa
      | true =>
        rw [BinDir.setStage, (hother q hq hqa).1]
        exact h.holds q

/-- What a call does, with what is good after it. -/
theorem sound (h : Safe t s₀ s as) (p : ι) (r : Reply) :
    Sound t (Good t s₀ (as ++ ((installers t).step s (.call p r)).2.toList)) (s.procs p) s.fs
      ((s.procs p).call t s.fs r) := by
  refine sound_call (h.scratch.mono fun _ _ hbs => hbs.append _) (h.holds p) r fun hrenamed => ?_
  have hanswer : ((installers t).step s (.call p r)).2 = some (p, .renamed) := by
    simp only [installers, hrenamed, Option.map_some]
  refine Or.inr ⟨rfl, p, List.mem_append_right as ?_, congrArg some (h.binary p)⟩
  rw [hanswer]
  exact List.mem_singleton_self _

/-- **The step.**  Whatever happens to the directory, as long as the temporary name has one user. -/
theorem step (h : Safe t s₀ s as) {e : DirEvent ι} (he : Exclusive s e) :
    Safe t s₀ ((installers t).step s e).1 (as ++ ((installers t).step s e).2.toList) := by
  cases e with
  | call p r =>
    have hsound := h.sound p r
    refine h.setStage hsound.scratch hsound.holds fun q hq hqa => ?_
    refine call_fs_of_not_active ?_ (fun hopen => ?_) r
    · exact Bool.eq_false_iff.mpr fun hpa => hq (h.one q p hqa hpa)
    · rw [he hopen q hq] at hqa
      cases hqa
  | kill p =>
    have hgone := active_kill (s.procs p).stage
    refine h.setStage (h.scratch.mono fun _ _ hbs => hbs.append _) (holds_of_not_active hgone) ?_
    exact fun _ _ _ => ⟨rfl, hgone⟩
  | crash k junk =>
    have hgone := fun p => active_crash (s.procs p).stage
    refine ⟨(h.scratch.crash k junk).mono fun _ _ hbs => hbs.append _, h.binary, fun p _ hp => ?_,
      fun p => holds_of_not_active (hgone p)⟩
    exact absurd hp (Bool.eq_false_iff.mp (hgone p))

/-- Without a crash, the name of the plugin changes with a rename, and with nothing else. -/
theorem read_step (h : Safe t s₀ s as) {e : DirEvent ι} (he : e.isCrash = false) :
    ((installers t).step s e).1.fs.read t.final =
      ((installers t).step s e).2.toList.foldl s₀.replace (s.fs.read t.final) := by
  cases e with
  | call p r =>
    have hread : ((installers t).step s (.call p r)).1.fs.read t.final = _ := (h.sound p r).final
    have hanswer : ((installers t).step s (.call p r)).2 =
        ((s.procs p).call t s.fs r).notice.map fun n => (p, n) := rfl
    rw [hread, hanswer]
    cases ((s.procs p).call t s.fs r).notice with
    | none => rfl
    | some n => simp [BinDir.replace, h.binary p]
  | kill p => rfl
  | crash k junk => cases he

/-- Nor does a file change that is under another name, or was since the last crash. -/
theorem keeps_step (h : Safe t s₀ s as) {e : DirEvent ι} (he : e.isCrash = false) :
    Keeps t.tmp s.fs ((installers t).step s e).1.fs := by
  cases e with
  | call p r => exact (h.sound p r).keeps
  | kill p => exact .refl _ _
  | crash k junk => cases he

end Safe

namespace Honest

/-- One installer goes on. -/
theorem setStage (h : Honest s as) {fs' : FS String} {p : ι} {stage : Stage}
    (hstage : stage.succeeds = true → (p, .renamed) ∈ as ++ as')
    (hnotice : ∀ q n, (q, n) ∈ as' → n.succeeds = true → (q, .renamed) ∈ as ++ as') :
    Honest (s.setStage fs' p stage) (as ++ as') where
  stage q hq := by
    rcases eq_or_ne q p with rfl | hne
    · rw [s.setStage_self] at hq
      exact hstage hq
    · rw [s.setStage_of_ne fs' hne] at hq
      exact List.mem_append_left _ (h.stage q hq)
  notice q n hmem hn := by
    rcases List.mem_append.mp hmem with hold | hnew
    · exact List.mem_append_left _ (h.notice q n hold hn)
    · exact hnotice q n hnew hn

theorem step (h : Honest s as) (e : DirEvent ι) :
    Honest ((installers t).step s e).1 (as ++ ((installers t).step s e).2.toList) := by
  cases e with
  | call p r =>
    obtain ⟨hstage, hnotice⟩ := succeeds_call (t := t) (s.procs p) s.fs r
    have hanswer (q : ι) (n : Notice) : (q, n) ∈ ((installers t).step s (.call p r)).2.toList ↔
        ((s.procs p).call t s.fs r).notice = some n ∧ p = q := by
      simp [installers]
    have hrenamed (hp : (s.procs p).stage.succeeds = true ∨
        ((s.procs p).call t s.fs r).notice = some .renamed) :
        (p, .renamed) ∈ as ++ ((installers t).step s (.call p r)).2.toList := by
      rcases hp with hp | hp
      · exact List.mem_append_left _ (h.stage p hp)
      · exact List.mem_append_right _ ((hanswer p _).mpr ⟨hp, rfl⟩)
    refine h.setStage (fun hsucceeds => hrenamed (hstage hsucceeds)) fun q n hmem hn => ?_
    obtain ⟨hsome, rfl⟩ := (hanswer q n).mp hmem
    rcases hnotice n hsome hn with hp | rfl
    · exact hrenamed (Or.inl hp)
    · exact hrenamed (Or.inr hsome)
  | kill p =>
    have hdead : (s.procs p).stage.kill.succeeds = false := by
      cases (s.procs p).stage <;> rfl
    refine h.setStage (fun hsucceeds => ?_) fun _ _ hmem => absurd hmem List.not_mem_nil
    rw [hdead] at hsucceeds
    cases hsucceeds
  | crash k junk =>
    have hdead (q : ι) : (s.procs q).stage.crash.succeeds = false := by
      cases (s.procs q).stage <;> rfl
    refine ⟨fun q hq => absurd hq (Bool.eq_false_iff.mp (hdead q)), fun q n hmem hn => ?_⟩
    rcases List.mem_append.mp hmem with hold | hnew
    · exact List.mem_append_left _ (h.notice q n hold hn)
    · exact absurd hnew List.not_mem_nil

end Honest

end Invariant

/-! ## Runs -/

section Runs

variable {ι : Type} [DecidableEq ι] {s : BinDir ι} {es es' : List (DirEvent ι)}

theorem Ready.safe_after (hs : Ready t s) (hes : (installers t).Along Exclusive s es) :
    Safe t s ((installers t).after s es) ((installers t).answers s es) :=
  run_invariant (I := Safe t s) (fun _ _ _ hsafe he => hsafe.step he) hes hs.safe

/-- **Installing is atomic.**  However many installers there are, whichever of their calls fail,
wherever they are killed and the node loses power, as long as no two of them have the temporary file
at once: the other plugins are as they were, and under the name of the plugin there is what was
there before or the whole binary of an installer that has renamed.  As long as the node has power it
is the binary of the last one that has.  An installer that has reported success, or has ended with
it, has renamed. -/
theorem install_atomic (hs : Ready t s) (hes : (installers t).Along Exclusive s es) :
    let fs := ((installers t).after s es).fs
    let notices := (installers t).answers s es
    (∀ a, a ≠ t.tmp → a ≠ t.final → fs.read a = s.fs.read a) ∧
      (fs.read t.final = s.fs.read t.final ∨
        ∃ p, (p, .renamed) ∈ notices ∧ fs.read t.final = some (s.procs p).binary) ∧
      ((∀ e ∈ es, e.isCrash = false) →
        fs.read t.final = notices.foldl s.replace (s.fs.read t.final)) ∧
      ∀ p n, (p, n) ∈ notices → n.succeeds = true → (p, .renamed) ∈ notices := by
  intro fs notices
  have hsafe := hs.safe_after hes
  refine ⟨fun a htmp hfinal => ?_, ?_, fun hpower => ?_, ?_⟩
  · rcases hsafe.scratch.good_read htmp with hold | ⟨ha, -⟩
    · exact hold
    · exact absurd ha hfinal
  · exact (hsafe.scratch.good_read t.final_ne_tmp).imp_right And.right
  · refine (run_invariant
      (I := fun s' as =>
        Safe t s s' as ∧ s'.fs.read t.final = as.foldl s.replace (s.fs.read t.final))
      ?_ (hes.and (along_of_forall hpower)) ⟨hs.safe, rfl⟩).2
    rintro s' as e ⟨hsafe', hread⟩ ⟨he, hcrash⟩
    refine ⟨hsafe'.step he, ?_⟩
    rw [hsafe'.read_step hcrash, hread, List.foldl_append]
  · exact (run_invariant (I := Honest) (fun _ _ e hhonest _ => hhonest.step e) hes hs.honest).notice

/-- Two installers of different binaries, in a directory with an old plugin and another one. -/
def testBinDir : BinDir (Fin 2) where
  fs := .ofFiles [("cilium-clat", [1, 1]), ("loopback", [9])]
  procs p := ⟨[2, p.val.toUInt8, 3], .parse⟩

def testTarget : Target := ⟨"/host/opt/cni/bin", "cilium-clat", by decide⟩

theorem testBinDir_ready : Ready testTarget testBinDir :=
  ⟨.ofFiles _ _, fun _ => rfl⟩

/-- The calls of an installer that writes its binary in two pieces, if they all work: eleven to the
rename, the message and the exit. -/
def testCalls (p : Fin 2) : List (DirEvent (Fin 2)) :=
  List.replicate 5 (.call p (.ok 0)) ++ [.call p (.ok 0), .call p (.ok 1)] ++
    List.replicate 6 (.call p (.ok 0))

/-- The node loses power in the middle of the first copy.  The second installer finds the file,
renames, and is killed before it can say so. -/
theorem install_atomic_crash :
    let es := (testCalls 0).take 6 ++ [.crash 0 fun _ => [7, 7]] ++
      (testCalls 1).take 11 ++ [.kill 1]
    let fs := ((installers testTarget).after testBinDir es).fs
    (installers testTarget).answers testBinDir es = [(1, .renamed)] ∧
      fs.read "loopback" = some [9] ∧ fs.read "cilium-clat" = some [2, 1, 3] := by
  intro es fs
  have hes : (installers testTarget).Along Exclusive testBinDir es := by decide +kernel
  obtain ⟨hother, -⟩ := install_atomic testBinDir_ready hes
  refine ⟨by decide +kernel, ?_, by decide +kernel⟩
  rw [hother "loopback" (by decide) (by decide)]
  decide +kernel

/-- **What the runtime executes.**  A runtime that opens the plugin at any point of the run and
reads it until any later point, with power in between, reads what was installed before the run, or
the whole binary of an installer that had renamed. -/
theorem install_never_partial (hs : Ready t s)
    (hes : (installers t).Along Exclusive s (es ++ es')) (hpower : ∀ e ∈ es', e.isCrash = false)
    {i : ℕ} (hi : ((installers t).after s es).fs.dir t.final = some i) :
    let bs := ((installers t).after s (es ++ es')).fs.files i
    some bs = s.fs.read t.final ∨
      ∃ p, (p, .renamed) ∈ (installers t).answers s es ∧ bs = (s.procs p).binary := by
  intro bs
  obtain ⟨hes, hes'⟩ := along_append.mp hes
  have hsafe := hs.safe_after hes
  -- From the point where the plugin is opened, the run goes on with the answers it has.
  have hkeeps : Keeps t.tmp ((installers t).after s es).fs
      ((installers t).after ((installers t).after s es) es').fs := by
    refine (run_invariant
      (I := fun s' as => Safe t s s' ((installers t).answers s es ++ as) ∧
        Keeps t.tmp ((installers t).after s es).fs s'.fs)
      ?_ (hes'.and (along_of_forall hpower)) ⟨?_, .refl _ _⟩).2
    · rintro s' as e ⟨hsafe', hkeeps⟩ ⟨he, hcrash⟩
      refine ⟨?_, hkeeps.trans (hsafe'.keeps_step hcrash)⟩
      rw [← List.append_assoc]
      exact hsafe'.step he
    · rw [List.append_nil]
      exact hsafe
  have hbytes : bs = ((installers t).after s es).fs.files i := by
    have hfile := hkeeps.files _ (FS.dir_mem _) t.final t.final_ne_tmp i hi
    rw [← after_append] at hfile
    exact hfile
  have hread : ((installers t).after s es).fs.read t.final = some bs := by
    rw [FS.read, hi, Option.map_some, hbytes]
  rcases hsafe.scratch.good_read t.final_ne_tmp with hold | ⟨-, p, hmem, hbinary⟩
  · exact Or.inl (hread.symm.trans hold)
  · exact Or.inr ⟨p, hmem, Option.some.inj (hread.symm.trans hbinary)⟩

end Runs

/-- The runtime has the old plugin open while the first installer replaces it. -/
theorem install_never_partial_replaced :
    let es : List (DirEvent (Fin 2)) := (testCalls 0).take 6
    let es' := (testCalls 0).drop 6
    let fs := ((installers testTarget).after testBinDir (es ++ es')).fs
    fs.files 0 = [1, 1] ∧ fs.dir "cilium-clat" = some 2 ∧
      (some (fs.files 0) = testBinDir.fs.read "cilium-clat" ∨
        ∃ p, (p, .renamed) ∈ (installers testTarget).answers testBinDir es ∧
          fs.files 0 = (testBinDir.procs p).binary) := by
  intro es es' fs
  have hes : (installers testTarget).Along Exclusive testBinDir (es ++ es') := by decide +kernel
  have hpower : ∀ e ∈ es', e.isCrash = false := by decide
  have hi : ((installers testTarget).after testBinDir es).fs.dir testTarget.final = some 0 := by
    decide +kernel
  exact ⟨by decide +kernel, by decide +kernel,
    install_never_partial testBinDir_ready hes hpower hi⟩

/-! ## Two at once -/

section Overlap

variable {ι : Type} [DecidableEq ι] {s s₁ s₂ : BinDir ι} {es es' : List (DirEvent ι)} {p q : ι}

/-- An installer goes on with one call. -/
theorem step_setStage {fs fs' : FS String} {stage stage' : Stage} {r : Reply} {n : Option Notice}
    (h : Installer.call t ⟨(s.procs p).binary, stage⟩ fs r = ⟨fs', stage', n⟩) :
    (installers t).step (s.setStage fs p stage) (.call p r) =
      (s.setStage fs' p stage', n.map fun n => (p, n)) := by
  have hcall : ((s.setStage fs p stage).procs p).call t fs r = ⟨fs', stage', n⟩ := by
    rw [s.setStage_self]
    exact h
  have hfs : (s.setStage fs p stage).fs = fs := rfl
  simp only [installers, hfs, hcall, s.setStage_setStage]

/-- Every call of the run works, and there is nothing to notice. -/
structure Leads (t : Target) (s : BinDir ι) (es : List (DirEvent ι)) (s' : BinDir ι) : Prop where
  after : (installers t).after s es = s'
  answers : (installers t).answers s es = []
  works : ∀ e ∈ es, ∃ r n, e = .call r (.ok n)

namespace Leads

theorem refl (t : Target) (s : BinDir ι) : Leads t s [] s :=
  ⟨rfl, rfl, fun _ he => absurd he List.not_mem_nil⟩

theorem trans (h : Leads t s es s₁) (h' : Leads t s₁ es' s₂) : Leads t s (es ++ es') s₂ where
  after := by rw [after_append, h.after, h'.after]
  answers := by rw [answers_append, h.after, h.answers, h'.answers, List.append_nil]
  works e he := (List.mem_append.mp he).elim (h.works e) (h'.works e)

/-- One call of an installer. -/
theorem call {fs fs' : FS String} {stage stage' : Stage} {n : ℕ}
    (h : Installer.call t ⟨(s.procs p).binary, stage⟩ fs (.ok n) = ⟨fs', stage', none⟩) :
    Leads t (s.setStage fs p stage) [.call p (.ok n)] (s.setStage fs' p stage') := by
  have hstep := step_setStage h
  refine ⟨?_, ?_, fun e he => ⟨p, n, List.mem_singleton.mp he⟩⟩
  · exact congrArg Prod.fst hstep
  · rw [Machine.answers, hstep]
    rfl

end Leads

/-- An installer comes to the copy. -/
theorem leads_copy (hp : (s.procs p).stage = .parse) :
    ∃ es, Leads t s es (s.setStage (s.fs.openTrunc t.tmp).2 p
      (.copy (s.fs.openTrunc t.tmp).1 (s.procs p).binary)) := by
  have hself : s.setStage s.fs p .parse = s := by
    rw [BinDir.setStage, ← hp]
    exact congrArg (BinDir.mk s.fs) (Function.update_eq_self p s.procs)
  have hparse : Leads t (s.setStage s.fs p .parse) _ (s.setStage s.fs p .executable) :=
    .call (n := 0) rfl
  have hexecutable : Leads t (s.setStage s.fs p .executable) _ (s.setStage s.fs p .mkdirAll) :=
    .call (n := 0) rfl
  have hmkdirAll : Leads t (s.setStage s.fs p .mkdirAll) _ (s.setStage s.fs p .openSelf) :=
    .call (n := 0) rfl
  have hopenSelf : Leads t (s.setStage s.fs p .openSelf) _ (s.setStage s.fs p .openTmp) :=
    .call (n := 0) rfl
  have hopenTmp : Leads t (s.setStage s.fs p .openTmp) _ (s.setStage (s.fs.openTrunc t.tmp).2 p
      (.copy (s.fs.openTrunc t.tmp).1 (s.procs p).binary)) :=
    .call (n := 0) rfl
  rw [hself] at hparse
  exact ⟨_, (((hparse.trans hexecutable).trans hmkdirAll).trans hopenSelf).trans hopenTmp⟩

/-- It has copied any number of bytes. -/
theorem leads_write (fs : FS String) (dst : ℕ) (rest : List UInt8) (n : ℕ) :
    ∃ es fs', Leads t (s.setStage fs p (.copy dst rest)) es
        (s.setStage fs' p (.copy dst (rest.drop n))) ∧
      fs'.dir = fs.dir ∧ fs'.files dst = fs.files dst ++ rest.take n := by
  cases n with
  | zero => exact ⟨[], fs, .refl _ _, rfl, (List.append_nil _).symm⟩
  | succ n =>
    cases rest with
    | nil => exact ⟨[], fs, .refl _ _, rfl, (List.append_nil _).symm⟩
    | cons b rest => exact ⟨_, _, .call (n := n) rfl, rfl, Function.update_self _ _ _⟩

/-- An installer comes to the rename. -/
theorem leads_rename (hp : (s.procs p).stage = .parse) :
    ∃ es fs, Leads t s es (s.setStage fs p .rename) := by
  obtain ⟨es, hcopy⟩ := leads_copy (t := t) hp
  obtain ⟨es', fs, hwrite, -⟩ := leads_write (t := t) (s := s) (p := p) (s.fs.openTrunc t.tmp).2
    (s.fs.openTrunc t.tmp).1 (s.procs p).binary (s.procs p).binary.length
  rw [List.drop_length] at hwrite
  have hend : Leads t (s.setStage fs p (.copy (s.fs.openTrunc t.tmp).1 [])) _
      (s.setStage fs p (.sync (s.fs.openTrunc t.tmp).1)) :=
    .call (n := 0) rfl
  have hsync : Leads t (s.setStage fs p (.sync (s.fs.openTrunc t.tmp).1)) _
      (s.setStage (fs.sync (s.fs.openTrunc t.tmp).1) p .close) :=
    .call (n := 0) rfl
  have hclose : Leads t (s.setStage (fs.sync (s.fs.openTrunc t.tmp).1) p .close) _
      (s.setStage (fs.sync (s.fs.openTrunc t.tmp).1) p .rename) :=
    .call (n := 0) rfl
  exact ⟨_, _, (((hcopy.trans hwrite).trans hend).trans hsync).trans hclose⟩

/-- And moves whatever is under the temporary name then, says so, and ends. -/
theorem step_rename {dst : ℕ} (hp : (s.procs p).stage = .rename)
    (hdst : s.fs.dir t.tmp = some dst) :
    (installers t).answers s (List.replicate 3 (.call p (.ok 0))) =
        [(p, .renamed), (p, .printed t.installed), (p, .exited 0)] ∧
      ((installers t).after s (List.replicate 3 (.call p (.ok 0)))).fs.read t.final =
        some (s.fs.files dst) := by
  have hrename : s.fs.rename t.tmp t.final = some (s.fs.move t.tmp t.final) := by
    rw [FS.rename, hdst]
    rfl
  have hcall : (s.procs p).call t s.fs (.ok 0)
      = ⟨s.fs.move t.tmp t.final, .print t.installed, some .renamed⟩ := by
    simp only [Installer.call, hp, hrename]
  have hstep₁ : (installers t).step s (.call p (.ok 0)) =
      (s.setStage (s.fs.move t.tmp t.final) p (.print t.installed), some (p, .renamed)) := by
    simp only [installers, hcall, Option.map_some]
  have hstep₂ : (installers t).step
      (s.setStage (s.fs.move t.tmp t.final) p (.print t.installed)) (.call p (.ok 0)) =
      (s.setStage (s.fs.move t.tmp t.final) p (.exit 0), some (p, .printed t.installed)) :=
    step_setStage rfl
  have hstep₃ : (installers t).step
      (s.setStage (s.fs.move t.tmp t.final) p (.exit 0)) (.call p (.ok 0)) =
      (s.setStage (s.fs.move t.tmp t.final) p .exited, some (p, .exited 0)) :=
    step_setStage rfl
  constructor
  · simp only [List.replicate_succ, List.replicate_zero, Machine.answers, hstep₁, hstep₂, hstep₃]
    rfl
  · have hafter : ((installers t).after s (List.replicate 3 (.call p (.ok 0)))).fs =
        s.fs.move t.tmp t.final := by
      simp only [List.replicate_succ, List.replicate_zero, Machine.after, List.foldl_cons,
        List.foldl_nil, hstep₁, hstep₂, hstep₃]
      rfl
    rw [hafter, FS.read_move _ t.final_ne_tmp, FS.read, hdst, Option.map_some]

/-- **Two at once.**  The temporary name is the same for all installers, so without exclusion the
promise is lost: one installer may report success and end with it when under the name of the plugin
there are only the first `n` bytes of the binary of the other, for any `n`, without a fault
anywhere. -/
theorem install_overlap (t : Target) (hq : q ≠ p) (hparse : (s.procs p).stage = .parse)
    (hparse' : (s.procs q).stage = .parse) (n : ℕ) :
    ∃ es, (∀ e ∈ es, ∃ r m, e = .call r (.ok m)) ∧
      (installers t).answers s es =
        [(p, .renamed), (p, .printed t.installed), (p, .exited 0)] ∧
      ((installers t).after s es).fs.read t.final = some ((s.procs q).binary.take n) := by
  -- `p` has done everything but the rename.
  obtain ⟨es, fs, hrename⟩ := leads_rename (t := t) hparse
  have hother : (s.setStage fs p .rename).procs q = s.procs q := s.setStage_of_ne fs hq _
  -- `q` opens the file that `p` is about to move, and with that empties it.
  obtain ⟨es₁, hcopy⟩ := leads_copy (t := t) (congrArg Installer.stage hother ▸ hparse')
  obtain ⟨hdir, hempty⟩ := fs.openTrunc_spec t.tmp
  rw [hother] at hcopy
  obtain ⟨es₂, fs', hwrite, hdir', hbytes⟩ := leads_write (t := t) (s := s.setStage fs p .rename)
    (p := q) (fs.openTrunc t.tmp).2 (fs.openTrunc t.tmp).1 (s.procs q).binary n
  rw [hempty, List.nil_append] at hbytes
  have hlead := (hrename.trans hcopy).trans hwrite
  -- `p` moves it.
  have hp : (((s.setStage fs p .rename).setStage fs' q
      (.copy (fs.openTrunc t.tmp).1 ((s.procs q).binary.drop n))).procs p).stage = .rename := by
    rw [BinDir.setStage_of_ne _ _ hq.symm, BinDir.setStage_self]
  obtain ⟨hanswers, hread⟩ := step_rename (t := t) hp (hdir'.symm ▸ hdir)
  refine ⟨(es ++ es₁ ++ es₂) ++ List.replicate 3 (.call p (.ok 0)), fun e he => ?_, ?_, ?_⟩
  · rcases List.mem_append.mp he with he | he
    · exact hlead.works e he
    · exact ⟨p, 0, List.eq_of_mem_replicate he⟩
  · rw [answers_append, hlead.after, hlead.answers, hanswers, List.nil_append]
  · rw [after_append, hlead.after, hread]
    exact congrArg some hbytes

/-- Two of the three bytes. -/
theorem install_overlap_two_bytes :
    ∃ es, (installers testTarget).answers testBinDir es =
        [(0, .renamed), (0, .printed testTarget.installed), (0, .exited 0)] ∧
      ((installers testTarget).after testBinDir es).fs.read "cilium-clat" = some [2, 1] ∧
      (testBinDir.procs 1).binary = [2, 1, 3] := by
  have hne : (1 : Fin 2) ≠ 0 := by decide
  obtain ⟨es, -, hanswers, hread⟩ := install_overlap (s := testBinDir) testTarget hne rfl rfl 2
  exact ⟨es, hanswers, hread, rfl⟩

end Overlap

end CiliumClat.Plugin
