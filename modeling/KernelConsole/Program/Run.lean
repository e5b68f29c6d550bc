import KernelConsole.Program.Basic

/-!
# Running a Program

A `Handler` answers requests from a state and moves the state along, or halts.
`Prog.run` plays a program against a handler.

Fuel bounds how often any one loop may go round. It is spent by loops alone, so
a program without loops never runs out, and a run that ends with fuel `n` ends
the same way with more.

## Main definitions

* `Handler`: An answer to every request, from a state.
* `repeatUntil`: Going round a loop at most so many times.
* `carry`, `Handler.beside`: A value beside the state that is left alone.
* `forget`: A part of the state that is left out.
* `Prog.run`: Playing a program against a handler.

## Theorems

* `bind_eq_ok`: When a step in two parts ends with a value.
* `repeatUntil_mono`: More fuel keeps the result of a loop.
* `Prog.run_bind`: Running a sequence is running its parts in turn.
* `Prog.run_interpret`: Running a program whose requests were replaced.
* `Prog.run_beside`: A run leaves a value beside the state alone.
* `Prog.run_forget`: A run in a state of which a part is forgotten.
* `Prog.run_mono`: More fuel keeps the result of a run.
-/

namespace KernelConsole

/-- Answers each request from a state, giving the reply and the next state, or
    halts the run. -/
abbrev Handler (I : Interface) (σ : Type) : Type :=
  (r : I.Request) → σ → Except Halt (I.Reply r × σ)

/-- Goes round `body` until it returns an `inr` value, at most as often as the
    fuel says. -/
def repeatUntil {β γ σ : Type} (body : β → σ → Except Halt ((β ⊕ γ) × σ)) :
    Nat → β → σ → Except Halt (γ × σ)
  | 0, _, _ => .error .outOfFuel
  | fuel + 1, b, s => (body b s).bind fun v => match v.1 with
    | .inl b' => repeatUntil body fuel b' v.2
    | .inr c => .ok (c, v.2)

/-- A step that ends with a value has a first part that does, and the rest ends
    with it. -/
theorem bind_eq_ok {ε α β : Type} {x : Except ε α} {f : α → Except ε β} {b : β} :
    x.bind f = .ok b ↔ ∃ a, x = .ok a ∧ f a = .ok b := by
  cases x with
  | error why => exact ⟨fun h => (nomatch h), fun ⟨_, h, _⟩ => (nomatch h)⟩
  | ok a =>
      refine ⟨fun h => ⟨a, rfl, h⟩, fun ⟨a', h, hf⟩ => ?_⟩
      cases h
      exact hf

/-- A loop that ends keeps its result when it is given more fuel, and when its
    body is given more. -/
theorem repeatUntil_mono {β γ σ : Type} {body body' : β → σ → Except Halt ((β ⊕ γ) × σ)}
    (hbody : ∀ b s v, body b s = .ok v → body' b s = .ok v) {m n : Nat} (hmn : m ≤ n) :
    ∀ {b : β} {s : σ} {v : γ × σ},
      repeatUntil body m b s = .ok v → repeatUntil body' n b s = .ok v := by
  induction m generalizing n with
  | zero => intro b s v h; cases h
  | succ m ih =>
      intro b s v h
      obtain ⟨k, rfl⟩ : ∃ k, n = k + 1 := ⟨n - 1, by omega⟩
      simp only [repeatUntil] at h ⊢
      obtain ⟨⟨next, s'⟩, hnext, hrest⟩ := bind_eq_ok.1 h
      refine bind_eq_ok.2 ⟨(next, s'), hbody _ _ _ hnext, ?_⟩
      cases next with
      | inl b' => exact ih (by omega) hrest
      | inr c => exact hrest

/-- The outcome of a step, with a value beside the state it ends in. -/
def carry {α σ τ : Type} (t : τ) (x : Except Halt (α × σ)) : Except Halt (α × σ × τ) :=
  x.bind fun v => .ok (v.1, v.2, t)

/-- The same handler with a value beside its state, which it leaves alone. -/
def Handler.beside {I : Interface} {σ : Type} (h : Handler I σ) (τ : Type) : Handler I (σ × τ) :=
  fun r s => carry s.2 (h r s.1)

/-- A loop whose body leaves a value beside its state alone does so as a whole. -/
theorem repeatUntil_beside {β γ σ τ : Type} {body : β → σ → Except Halt ((β ⊕ γ) × σ)}
    {wide : β → σ × τ → Except Halt ((β ⊕ γ) × σ × τ)}
    (hbody : ∀ b s t, wide b (s, t) = carry t (body b s)) (fuel : Nat) (b : β) (s : σ) (t : τ) :
    repeatUntil wide fuel b (s, t) = carry t (repeatUntil body fuel b s) := by
  induction fuel generalizing b s with
  | zero => rfl
  | succ fuel ih =>
      simp only [repeatUntil, hbody]
      match body b s with
      | .error why => rfl
      | .ok (.inl b', s') => exact ih b' s'
      | .ok (.inr c, s') => rfl

/-- The outcome of a step in a state of which a part is forgotten. -/
def forget {α σ τ : Type} (view : σ → τ) (x : Except Halt (α × σ)) : Except Halt (α × τ) :=
  x.bind fun v => .ok (v.1, view v.2)

/-- A loop in a state of which a part is forgotten, round by round. -/
theorem repeatUntil_forget {β γ σ τ : Type} {view : σ → τ}
    {body : β → σ → Except Halt ((β ⊕ γ) × σ)} {plain : β → τ → Except Halt ((β ⊕ γ) × τ)}
    (hbody : ∀ b s, forget view (body b s) = plain b (view s)) (fuel : Nat) (b : β) (s : σ) :
    forget view (repeatUntil body fuel b s) = repeatUntil plain fuel b (view s) := by
  induction fuel generalizing b s with
  | zero => rfl
  | succ fuel ih =>
      simp only [repeatUntil, ← hbody]
      match body b s with
      | .error why => rfl
      | .ok (.inl b', s') => exact ih b' s'
      | .ok (.inr c, s') => rfl

namespace Prog

variable {I : Interface} {σ : Type} {α β : Type}

/-- Plays a program against a handler. Each loop may go round at most `fuel`
    times. -/
def run (h : Handler I σ) (fuel : Nat) {α : Type} : Prog I α → σ → Except Halt (α × σ)
  | done a, s => .ok (a, s)
  | halt why, _ => .error why
  | call r next, s => (h r s).bind fun v => (next v.1).run h fuel v.2
  | loop body start next, s =>
    (repeatUntil (fun b s => (body b).run h fuel s) fuel start s).bind fun v =>
      (next v.1).run h fuel v.2

theorem run_bind (h : Handler I σ) (fuel : Nat) (p : Prog I α) (f : α → Prog I β) (s : σ) :
    (p >>= f).run h fuel s = (p.run h fuel s).bind fun v => (f v.1).run h fuel v.2 := by
  rw [bind_eq]
  induction p generalizing s with
  | done a => rfl
  | halt why => rfl
  | call r next ih =>
      -- The rest is in the continuation, which the induction is over.
      simp only [Prog.bind, run]
      cases h r s with
      | error why => rfl
      | ok v => exact ih _ _ _
  | loop body start next _ ih =>
      simp only [Prog.bind, run]
      cases repeatUntil (fun b s => (body b).run h fuel s) fuel start s with
      | error why => rfl
      | ok v => exact ih _ _ _

/-- Replacing requests by programs is the same as answering each request by
    running its program. -/
theorem run_interpret {J : Interface} (f : (r : I.Request) → Prog J (I.Reply r))
    (h : Handler J σ) (g : Handler I σ) (fuel : Nat)
    (hfg : ∀ r s, (f r).run h fuel s = g r s) (p : Prog I α) (s : σ) :
    (p.interpret f).run h fuel s = p.run g fuel s := by
  induction p generalizing s with
  | done a => rfl
  | halt why => rfl
  | call r next ih =>
      have hcall := run_bind h fuel (f r) (fun a => (next a).interpret f) s
      rw [bind_eq, hfg] at hcall
      simp only [interpret, run, hcall]
      cases g r s with
      | error why => rfl
      | ok v => exact ih _ _
  | loop body start next ihb ih =>
      have hbody : (fun b s => ((body b).interpret f).run h fuel s) =
          fun b s => (body b).run g fuel s := funext fun b => funext fun s => ihb b s
      simp only [interpret, run, hbody]
      cases repeatUntil (fun b s => (body b).run g fuel s) fuel start s with
      | error why => rfl
      | ok v => exact ih _ _

/-- A value beside the state is there unchanged after a run. -/
theorem run_beside {τ : Type} (h : Handler I σ) (fuel : Nat) (p : Prog I α) (s : σ) (t : τ) :
    p.run (h.beside τ) fuel (s, t) = carry t (p.run h fuel s) := by
  induction p generalizing s t with
  | done a => rfl
  | halt why => rfl
  | call r next ih =>
      simp only [run, Handler.beside]
      cases h r s with
      | error why => rfl
      | ok v => exact ih _ _ _
  | loop body start next ihb ih =>
      simp only [run, repeatUntil_beside ihb]
      cases repeatUntil (fun b s => (body b).run h fuel s) fuel start s with
      | error why => rfl
      | ok v => exact ih _ _ _

/-- A run in a state of which a part is forgotten is the run on what is left, if
    the answers do not hang on that part. -/
theorem run_forget {τ : Type} {view : σ → τ} {h : Handler I σ} {plain : Handler I τ}
    (hview : ∀ r s, forget view (h r s) = plain r (view s)) (fuel : Nat) (p : Prog I α) (s : σ) :
    forget view (p.run h fuel s) = p.run plain fuel (view s) := by
  induction p generalizing s with
  | done a => rfl
  | halt why => rfl
  | call r next ih =>
      simp only [run, ← hview]
      cases h r s with
      | error why => rfl
      | ok v => exact ih v.1 v.2
  | loop body start next ihb ih =>
      simp only [run, ← repeatUntil_forget ihb]
      cases repeatUntil (fun b s => (body b).run h fuel s) fuel start s with
      | error why => rfl
      | ok v => exact ih v.1 v.2

/-- A run that ends with a value ends with it on any larger fuel. -/
theorem run_mono (h : Handler I σ) {m n : Nat} (hmn : m ≤ n) (p : Prog I α) :
    ∀ {s : σ} {v : α × σ}, p.run h m s = .ok v → p.run h n s = .ok v := by
  induction p with
  | done a => intro s v hv; exact hv
  | halt why => intro s v hv; cases hv
  | call r next ih =>
      intro s v hv
      obtain ⟨w, hw, hrest⟩ := bind_eq_ok.1 hv
      exact bind_eq_ok.2 ⟨w, hw, ih _ hrest⟩
  | loop body start next ihb ih =>
      intro s v hv
      obtain ⟨w, hw, hrest⟩ := bind_eq_ok.1 hv
      exact bind_eq_ok.2 ⟨w, repeatUntil_mono (fun b s v hb => ihb b hb) hmn hw, ih _ hrest⟩

end Prog

end KernelConsole
