import Mathlib.Data.Nat.Cast.Basic

/-!
# Machines that answer events

A `Machine` has a state, takes one event after the other, and may give an answer to each.  What such
a machine does over a run is its sequence of answers.

There are two ways to say something about every run, and both ask for one step only.

* An *invariant* relates the state to the answers so far.  If every step keeps it, it holds after
  every run (`run_invariant`).  It may leave the answers out (`after_invariant`), or count them
  (`after_eq_add_countP`).
* A *simulation* is a relation between the states of two machines that take the same events.  If
  every step keeps it, and related states answer alike, then the runs have the same answers
  (`Simulates.answers_eq`).

Both are relative to what the environment is trusted with: a property of the events, or one of the
events in the states that they meet (`Machine.Along`).
-/

namespace EventMachine

/-- A machine with states `σ` that takes events `ε` and may answer them with an `ω`. -/
structure Machine (σ ε ω : Type) where
  step : σ → ε → σ × Option ω

variable {σ τ ε ω ω' : Type}

/-- The state after some events. -/
def Machine.after (M : Machine σ ε ω) (s : σ) (es : List ε) : σ :=
  es.foldl (fun s e => (M.step s e).1) s

/-- The answers to some events. -/
def Machine.answers (M : Machine σ ε ω) : σ → List ε → List ω
  | _, [] => []
  | s, e :: es => (M.step s e).2.toList ++ M.answers (M.step s e).1 es

/-- Each event of a run is one that is trusted in the state that it meets. -/
def Machine.Along (M : Machine σ ε ω) (G : σ → ε → Prop) : σ → List ε → Prop
  | _, [] => True
  | s, e :: es => G s e ∧ M.Along G (M.step s e).1 es

instance Machine.decidableAlong (M : Machine σ ε ω) (G : σ → ε → Prop) [∀ s e, Decidable (G s e)] :
    ∀ (s : σ) (es : List ε), Decidable (M.Along G s es)
  | _, [] => .isTrue trivial
  | s, e :: es =>
    have := M.decidableAlong G (M.step s e).1 es
    inferInstanceAs (Decidable (G s e ∧ M.Along G (M.step s e).1 es))

section Invariant

variable {M : Machine σ ε ω} {G : σ → ε → Prop} {P : ε → Prop}

theorem along_of_forall {s : σ} {es : List ε} (hes : ∀ e ∈ es, P e) :
    M.Along (fun _ => P) s es := by
  induction es generalizing s with
  | nil => trivial
  | cons e es ih =>
    obtain ⟨he, hes⟩ := List.forall_mem_cons.mp hes
    exact ⟨he, ih hes⟩

theorem Machine.Along.and {G' : σ → ε → Prop} {s : σ} {es : List ε} (h : M.Along G s es)
    (h' : M.Along G' s es) : M.Along (fun s e => G s e ∧ G' s e) s es := by
  induction es generalizing s with
  | nil => trivial
  | cons e es ih => exact ⟨⟨h.1, h'.1⟩, ih h.2 h'.2⟩

theorem after_append (s : σ) (es es' : List ε) :
    M.after s (es ++ es') = M.after (M.after s es) es' :=
  List.foldl_append

theorem answers_append (s : σ) (es es' : List ε) :
    M.answers s (es ++ es') = M.answers s es ++ M.answers (M.after s es) es' := by
  induction es generalizing s with
  | nil => rfl
  | cons e es ih =>
    rw [List.cons_append, Machine.answers, Machine.answers, ih, List.append_assoc]
    rfl

theorem along_append {s : σ} {es es' : List ε} :
    M.Along G s (es ++ es') ↔ M.Along G s es ∧ M.Along G (M.after s es) es' := by
  induction es generalizing s with
  | nil => exact (true_and _).symm.to_iff
  | cons e es ih => exact (and_congr_right' ih).trans and_assoc.symm

/-- **Invariants.**  What every step keeps, of the state and the answers so far, holds after every
run. -/
theorem run_invariant {I : σ → List ω → Prop}
    (hstep : ∀ s as e, I s as → G s e → I (M.step s e).1 (as ++ (M.step s e).2.toList))
    {s : σ} {es : List ε} (hes : M.Along G s es) (hs : I s []) :
    I (M.after s es) (M.answers s es) := by
  -- The answers so far are generalised: the run goes on after any of them.
  suffices ∀ as, I s as → I (M.after s es) (as ++ M.answers s es) from this [] hs
  clear hs
  induction es generalizing s with
  | nil =>
    intro as hs
    rw [Machine.answers, List.append_nil]
    exact hs
  | cons e es ih =>
    intro as hs
    rw [Machine.answers, ← List.append_assoc]
    exact ih hes.2 _ (hstep s as e hs hes.1)

/-- An invariant of the state alone. -/
theorem after_invariant {I : σ → Prop} (hstep : ∀ s e, I s → G s e → I (M.step s e).1) {s : σ}
    {es : List ε} (hes : M.Along G s es) (hs : I s) : I (M.after s es) :=
  run_invariant (I := fun s _ => I s) (fun s _ e => hstep s e) hes hs

/-- **Counting.**  A quantity that each step moves by the number of its answers with a property
counts these answers. -/
theorem after_eq_add_countP {A : Type} [AddMonoidWithOne A] {f : σ → A} {Q : ω → Bool}
    {I : σ → Prop} (hinv : ∀ s e, I s → G s e → I (M.step s e).1)
    (hstep : ∀ s e, I s → G s e → f (M.step s e).1 = f s + ((M.step s e).2.toList.countP Q : ℕ))
    {s : σ} {es : List ε} (hes : M.Along G s es) (hs : I s) :
    f (M.after s es) = f s + ((M.answers s es).countP Q : ℕ) := by
  refine (run_invariant (I := fun s' as => I s' ∧ f s' = f s + (as.countP Q : ℕ)) ?_ hes
    ⟨hs, ?_⟩).2
  · rintro s' as e ⟨hs', hf⟩ he
    refine ⟨hinv s' e hs' he, ?_⟩
    rw [hstep s' e hs' he, hf, List.countP_append, Nat.cast_add, add_assoc]
  · rw [List.countP_nil, Nat.cast_zero, add_zero]

end Invariant

/-- The machine `N` follows the machine `M`, whose answers are seen through `view`. -/
structure Simulates (M : Machine σ ε ω) (N : Machine τ ε ω') (P : ε → Prop) (R : σ → τ → Prop)
    (view : ω → ω') : Prop where
  state : ∀ {s t e}, R s t → P e → R (M.step s e).1 (N.step t e).1
  answer : ∀ {s t e}, R s t → P e → (M.step s e).2.map view = (N.step t e).2

/-- **Simulations.**  Related states give the same answers to every run. -/
theorem Simulates.answers_eq {M : Machine σ ε ω} {N : Machine τ ε ω'} {P : ε → Prop}
    {R : σ → τ → Prop} {view : ω → ω'} (h : Simulates M N P R view) {s : σ} {t : τ} {es : List ε}
    (hes : ∀ e ∈ es, P e) (hst : R s t) : (M.answers s es).map view = N.answers t es := by
  induction es generalizing s t with
  | nil => rfl
  | cons e es ih =>
    obtain ⟨he, hes⟩ := List.forall_mem_cons.mp hes
    have hanswer := congrArg Option.toList (h.answer hst he)
    rw [Option.toList_map] at hanswer
    rw [Machine.answers, Machine.answers, List.map_append, hanswer, ih hes (h.state hst he)]

end EventMachine
