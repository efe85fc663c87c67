import Mathlib.Logic.Basic

/-!
# Programs that may stop early, and their refinement of a pure function

`Prog σ ε α` is a program over a state `σ` that returns an `α` or stops early with a verdict
`ε`.  A C function with many `return` statements is one: the state is what the function can
change, the verdict what it returns.

Such a program calls helpers, and helpers may fail for reasons the program cannot see.  What
it computes is then best said in two halves.  A *pure* function `e : Except ι β` says what
happens when every helper does its job: a value, or a reason `ι` to stop.  `Refines` says that
the program follows it:

* when the program returns, the pure function returns too, and the two results and the state
  are related by `R` --- whatever the helpers did;
* when the program stops, it stops for some reason (`stop` says what a reason looks like in
  the verdict and the state), and if the helpers were reliable, for the reason the pure
  function gives.

So one proof gives both halves: soundness of every run, and completeness of the runs in which
no helper fails.  The rules follow the program: `Refines.bind` for a step that both sides
take, `Refines.step` for a step only the program takes, `Refines.of_error` for a stop.

A caller need not stop where its callee does: `attempt` hands it the outcome, and the state as the
callee left it.
-/

namespace EarlyExit

/-- A program over a state `σ` that returns an `α` or stops early with a verdict `ε`. -/
abbrev Prog (σ ε α : Type) : Type := ExceptT ε (StateM σ) α

/-- Run a program from a state. -/
def exec {σ ε α : Type} (p : Prog σ ε α) (s : σ) : Except ε α × σ :=
  p.run s

section Exec

variable {σ ε α β : Type} (s : σ)

@[simp] theorem exec_pure (a : α) : exec (pure a : Prog σ ε α) s = (.ok a, s) := rfl

@[simp] theorem exec_throw (e : ε) : exec (throw e : Prog σ ε α) s = (.error e, s) := rfl

@[simp] theorem exec_get : exec (get : Prog σ ε σ) s = (.ok s, s) := rfl

theorem exec_bind (p : Prog σ ε α) (f : α → Prog σ ε β) :
    exec (p >>= f) s =
      match exec p s with
      | (.ok a, s') => exec (f a) s'
      | (.error e, s') => (.error e, s') := by
  show (ExceptT.bind p f).run s = _
  simp only [ExceptT.bind, ExceptT.run, ExceptT.mk, exec]
  show (ExceptT.bindCont f (p s).1) (p s).2 = _
  rcases h : p s with ⟨r, s'⟩
  cases r with
  | ok a => rfl
  | error e => rfl

theorem exec_bind_ok {p : Prog σ ε α} {f : α → Prog σ ε β} {s s' : σ} {a : α}
    (h : exec p s = (.ok a, s')) : exec (p >>= f) s = exec (f a) s' := by
  rw [exec_bind, h]

theorem exec_bind_error {p : Prog σ ε α} {f : α → Prog σ ε β} {s s' : σ} {e : ε}
    (h : exec p s = (.error e, s')) : exec (p >>= f) s = (.error e, s') := by
  rw [exec_bind, h]

/-- Programs that go on the same way from wherever `p` returns have the same run. -/
theorem exec_bind_congr {p : Prog σ ε α} {f g : α → Prog σ ε β} {s : σ}
    (h : ∀ a s', exec p s = (.ok a, s') → exec (f a) s' = exec (g a) s') :
    exec (p >>= f) s = exec (p >>= g) s := by
  rcases hp : exec p s with ⟨e | a, s'⟩
  · rw [exec_bind_error hp, exec_bind_error hp]
  · rw [exec_bind_ok hp, exec_bind_ok hp]
    exact h a s' hp

/-- A sequence in `Except` that returns, taken apart. -/
theorem bind_eq_ok {e : Except ε α} {f : α → Except ε β} {b : β} :
    e >>= f = .ok b ↔ ∃ a, e = .ok a ∧ f a = .ok b := by
  cases e with
  | ok a => exact ⟨fun h => ⟨a, rfl, h⟩, fun ⟨_, ha, h⟩ => Except.ok.inj ha ▸ h⟩
  | error i => exact ⟨fun h => (nomatch h), fun ⟨_, ha, _⟩ => nomatch ha⟩

theorem error_or_ok (x : Except ε α) : (∃ e, x = .error e) ∨ ∃ a, x = .ok a := by
  cases x with
  | error e => exact Or.inl ⟨e, rfl⟩
  | ok a => exact Or.inr ⟨a, rfl⟩

/-- A program that only reads the state. -/
def query (f : σ → Except ε α) : Prog σ ε α :=
  ExceptT.mk fun s => (f s, s)

@[simp] theorem exec_query (f : σ → Except ε α) : exec (query f) s = (f s, s) := rfl

theorem exec_query_bind_ok {f : σ → Except ε α} {g : α → Prog σ ε β} (s : σ) {a : α}
    (h : f s = .ok a) : exec (query f >>= g) s = exec (g a) s :=
  exec_bind_ok (h ▸ exec_query s f)

theorem exec_query_bind_error {f : σ → Except ε α} {g : α → Prog σ ε β} (s : σ) {e : ε}
    (h : f s = .error e) : exec (query f >>= g) s = (.error e, s) :=
  exec_bind_error (h ▸ exec_query s f)

/-- A program that returns has returned from each of its parts. -/
theorem exec_bind_eq_ok {p : Prog σ ε α} {f : α → Prog σ ε β} {s s'' : σ} {b : β} :
    exec (p >>= f) s = (.ok b, s'') ↔
      ∃ a s', exec p s = (.ok a, s') ∧ exec (f a) s' = (.ok b, s'') := by
  rcases hp : exec p s with ⟨e | a, s'⟩
  · rw [exec_bind_error hp]
    refine iff_of_false nofun ?_
    rintro ⟨a, s', ⟨⟩, -⟩
  · rw [exec_bind_ok hp]
    constructor
    · intro h
      exact ⟨a, s', rfl, h⟩
    · rintro ⟨a, s', ⟨⟩, h⟩
      exact h

theorem exec_query_bind_eq_ok {q : σ → Except ε α} {f : α → Prog σ ε β} {s s' : σ} {b : β} :
    exec (query q >>= f) s = (.ok b, s') ↔ ∃ a, q s = .ok a ∧ exec (f a) s = (.ok b, s') := by
  rw [exec_bind_eq_ok]
  constructor
  · rintro ⟨a, s', hq, h⟩
    obtain ⟨ha, rfl⟩ := Prod.mk.inj hq
    exact ⟨a, ha, h⟩
  · rintro ⟨a, ha, h⟩
    exact ⟨a, s, by rw [exec_query, ha], h⟩

/-- Run a program and go on with its outcome, an early stop included.  What it has done to the
state stays done. -/
def attempt {ε' : Type} (p : Prog σ ε α) : Prog σ ε' (Except ε α) :=
  ExceptT.mk fun s => (.ok (exec p s).1, (exec p s).2)

@[simp] theorem exec_attempt {ε' : Type} (p : Prog σ ε α) :
    exec (attempt p : Prog σ ε' (Except ε α)) s = (.ok (exec p s).1, (exec p s).2) := rfl

theorem exec_attempt_bind {ε' : Type} {p : Prog σ ε α} {g : Except ε α → Prog σ ε' β} {s s' : σ}
    {r : Except ε α} (h : exec p s = (r, s')) : exec (attempt p >>= g) s = exec (g r) s' :=
  exec_bind_ok (by rw [exec_attempt, h])

/-- Run a program and change the verdict it stops with. -/
def mapError {ε' : Type} (f : ε → ε') (p : Prog σ ε α) : Prog σ ε' α :=
  ExceptT.mk fun s => ((exec p s).1.mapError f, (exec p s).2)

@[simp] theorem exec_mapError {ε' : Type} (f : ε → ε') (p : Prog σ ε α) :
    exec (mapError f p) s = ((exec p s).1.mapError f, (exec p s).2) := rfl

end Exec

/-! ## Programs that only look -/

section ReadOnly

variable {σ ε α β : Type}

/-- The program leaves every state as it is. -/
def ReadOnly (p : Prog σ ε α) : Prop :=
  ∀ s, (exec p s).2 = s

theorem readOnly_pure (a : α) : ReadOnly (pure a : Prog σ ε α) := fun _ => rfl

theorem readOnly_throw (e : ε) : ReadOnly (throw e : Prog σ ε α) := fun _ => rfl

theorem readOnly_query (f : σ → Except ε α) : ReadOnly (query f) := fun _ => rfl

theorem ReadOnly.bind {p : Prog σ ε α} {f : α → Prog σ ε β} (hp : ReadOnly p)
    (hf : ∀ a, ReadOnly (f a)) : ReadOnly (p >>= f) := by
  intro s
  have hs := hp s
  rcases h : exec p s with ⟨e | a, s'⟩
  · rw [exec_bind_error h]
    rw [h] at hs
    exact hs
  · rw [exec_bind_ok h, hf a s']
    rw [h] at hs
    exact hs

theorem ReadOnly.ite {c : Prop} [Decidable c] {p q : Prog σ ε α} (hp : ReadOnly p)
    (hq : ReadOnly q) : ReadOnly (if c then p else q) := by
  split
  · exact hp
  · exact hq

end ReadOnly

/-! ## Refinement -/

variable {σ ε ι α β γ δ : Type}

/-- The program `p`, run from `s`, follows the pure function `e`: see the head of this file.
`stop v s' i` says that stopping with `v` in state `s'` is stopping for the reason `i`. -/
def Refines (stop : ε → σ → ι → Prop) (reliable : Prop) (p : Prog σ ε α) (e : Except ι β)
    (R : α → β → σ → Prop) (s : σ) : Prop :=
  match exec p s with
  | (.ok a, s') => ∃ b, e = .ok b ∧ R a b s'
  | (.error v, s') => ∃ i, stop v s' i ∧ (reliable → e = .error i)

namespace Refines

variable {stop : ε → σ → ι → Prop} {reliable : Prop} {p : Prog σ ε α} {e : Except ι β}
  {R : α → β → σ → Prop} {s : σ}

theorem of_ok {a : α} {s' : σ} {b : β} (h : exec p s = (.ok a, s')) (he : e = .ok b)
    (hR : R a b s') : Refines stop reliable p e R s := by
  rw [Refines, h]
  exact ⟨b, he, hR⟩

theorem of_error {v : ε} {s' : σ} {i : ι} (h : exec p s = (.error v, s')) (hv : stop v s' i)
    (he : reliable → e = .error i) : Refines stop reliable p e R s := by
  rw [Refines, h]
  exact ⟨i, hv, he⟩

theorem pure {a : α} {b : β} (h : R a b s) : Refines stop reliable (Pure.pure a) (.ok b) R s :=
  of_ok (exec_pure s a) rfl h

/-- Without faults, a program that follows a function that returns does return. -/
theorem exists_exec {b : β} (hp : Refines stop True p (.ok b) R s) :
    ∃ a s', exec p s = (.ok a, s') ∧ R a b s' := by
  rw [Refines] at hp
  rcases h : exec p s with ⟨_ | a, s'⟩
  · rw [h] at hp
    obtain ⟨i, -, he⟩ := hp
    exact nomatch he trivial
  · rw [h] at hp
    obtain ⟨_, hb, hR⟩ := hp
    cases hb
    exact ⟨a, s', rfl, hR⟩

/-- A step that program and function both take. -/
theorem bind {f : α → Prog σ ε γ} {g : β → Except ι δ} {R' : γ → δ → σ → Prop}
    (hp : Refines stop reliable p e R s)
    (hf : ∀ a b s', R a b s' → Refines stop reliable (f a) (g b) R' s') :
    Refines stop reliable (p >>= f) (e >>= g) R' s := by
  rw [Refines] at hp
  rcases h : exec p s with ⟨_ | a, s'⟩
  · rw [h] at hp
    obtain ⟨i, hi, he⟩ := hp
    refine of_error (exec_bind_error h) hi fun hr => ?_
    rw [he hr]
    rfl
  · rw [h] at hp
    obtain ⟨b, he, hR⟩ := hp
    have hrest := hf a b s' hR
    rw [Refines] at hrest ⊢
    rw [exec_bind_ok h, he]
    exact hrest

/-- A step that only the program takes: the function has nothing to say about it. -/
theorem step {b : β} {f : α → Prog σ ε γ} {e' : Except ι δ} {R' : γ → δ → σ → Prop}
    (hp : Refines stop reliable p (.ok b) R s)
    (hf : ∀ a s', R a b s' → Refines stop reliable (f a) e' R' s') :
    Refines stop reliable (p >>= f) e' R' s := by
  rw [Refines] at hp
  rcases h : exec p s with ⟨_ | a, s'⟩
  · rw [h] at hp
    obtain ⟨i, hi, he⟩ := hp
    exact of_error (exec_bind_error h) hi fun hr => nomatch he hr
  · rw [h] at hp
    obtain ⟨_, hb, hR⟩ := hp
    cases hb
    have hrest := hf a s' hR
    rw [Refines] at hrest ⊢
    rw [exec_bind_ok h]
    exact hrest

/-- A step in which the program always goes on: run it and continue. -/
theorem exec_step {a : α} {s' : σ} {f : α → Prog σ ε γ} {e' : Except ι δ}
    {R' : γ → δ → σ → Prop} (h : exec p s = (.ok a, s'))
    (hf : Refines stop reliable (f a) e' R' s') : Refines stop reliable (p >>= f) e' R' s := by
  rw [Refines] at hf ⊢
  rw [exec_bind_ok h]
  exact hf

/-- A stop in the middle of a program stops the whole of it. -/
theorem bind_error {i : ι} {f : α → Prog σ ε γ} {R' : γ → δ → σ → Prop}
    (hp : Refines stop reliable p (.error i : Except ι β) R s) :
    Refines stop reliable (p >>= f) (.error i : Except ι δ) R' s := by
  rw [Refines] at hp
  rcases h : exec p s with ⟨_ | a, s'⟩
  · rw [h] at hp
    obtain ⟨j, hj, he⟩ := hp
    refine of_error (exec_bind_error h) hj fun hr => ?_
    cases he hr
    rfl
  · rw [h] at hp
    obtain ⟨_, hb, _⟩ := hp
    cases hb

theorem mono {R' : α → β → σ → Prop} (hp : Refines stop reliable p e R s)
    (hR : ∀ a b s', R a b s' → R' a b s') : Refines stop reliable p e R' s := by
  rw [Refines] at hp ⊢
  rcases h : exec p s with ⟨_ | a, s'⟩
  · rw [h] at hp
    exact hp
  · rw [h] at hp
    obtain ⟨b, he, hb⟩ := hp
    exact ⟨b, he, hR a b s' hb⟩

/-- What the function returned may be used about the value it returned. -/
theorem known (hp : Refines stop reliable p e R s) :
    Refines stop reliable p e (fun a b s' => e = .ok b ∧ R a b s') s := by
  rw [Refines] at hp ⊢
  rcases h : exec p s with ⟨_ | a, s'⟩
  · rw [h] at hp
    exact hp
  · rw [h] at hp
    obtain ⟨b, he, hb⟩ := hp
    exact ⟨b, he, he, hb⟩

/-- A last step that only the function takes, on its own value. -/
theorem map {g : β → δ} {R' : α → δ → σ → Prop} (hp : Refines stop reliable p e R s)
    (hR : ∀ a b s', R a b s' → R' a (g b) s') :
    Refines stop reliable p (e >>= fun b => .ok (g b)) R' s := by
  rw [Refines] at hp ⊢
  rcases h : exec p s with ⟨_ | a, s'⟩
  · rw [h] at hp
    obtain ⟨i, hi, he⟩ := hp
    refine ⟨i, hi, fun hr => ?_⟩
    rw [he hr]
    rfl
  · rw [h] at hp
    obtain ⟨b, he, hb⟩ := hp
    refine ⟨g b, ?_, hR a b s' hb⟩
    rw [he]
    rfl

/-- A program that returns a value the function knows in another form. -/
theorem value {b : β} {b' : δ} {R' : α → δ → σ → Prop}
    (hp : Refines stop reliable p (.ok b) R s) (hR : ∀ a s', R a b s' → R' a b' s') :
    Refines stop reliable p (.ok b') R' s := by
  rw [Refines] at hp ⊢
  rcases h : exec p s with ⟨_ | a, s'⟩
  · rw [h] at hp
    obtain ⟨i, hi, he⟩ := hp
    exact ⟨i, hi, fun hr => nomatch he hr⟩
  · rw [h] at hp
    obtain ⟨_, hb, hR'⟩ := hp
    cases hb
    exact ⟨b', rfl, hR a s' hR'⟩

/-- A program that stops, whatever type of value it would have returned. -/
theorem value_error {i : ι} {R' : α → δ → σ → Prop}
    (hp : Refines stop reliable p (.error i : Except ι β) R s) :
    Refines stop reliable p (.error i : Except ι δ) R' s := by
  rw [Refines] at hp ⊢
  rcases h : exec p s with ⟨_ | a, s'⟩
  · rw [h] at hp
    obtain ⟨j, hj, he⟩ := hp
    exact ⟨j, hj, fun hr => Except.error.inj (he hr) ▸ rfl⟩
  · rw [h] at hp
    obtain ⟨_, hb, _⟩ := hp
    cases hb

/-- A guard that both sides test. -/
theorem ite {c : Prop} [Decidable c] {q : Prog σ ε α} {e' : Except ι β}
    (hp : c → Refines stop reliable p e R s) (hq : ¬ c → Refines stop reliable q e' R s) :
    Refines stop reliable (if c then p else q) (if c then e else e') R s := by
  by_cases h : c
  · rw [if_pos h, if_pos h]
    exact hp h
  · rw [if_neg h, if_neg h]
    exact hq h

end Refines

end EarlyExit
