import KernelConsole.Hardware.Bus
import KernelConsole.Log.Reporting

/-!
# What a Run Returns

Statements that a run ends, made with `Prog.Returns`: the program ends with a
value, and the value and the state it ends in are as they should be. It neither
halts nor goes round a loop for ever.

The rules are about programs on hardware that answers every access. A loop over a
list always ends. A loop that goes on until it is told to stop ends if the fuel is
more than the rounds that are left, which every round has to make fewer.

`Prog.Finishes` says the same of the tree, and so of every run: whatever the replies
are, the program makes only requests that are allowed, never halts, has no loop that
hangs on a reply, and ends with a value as it should be.

## Main definitions

* `Prog.Returns`: The run ends, and what holds then.
* `Prog.Finishes`: Every run ends, and which requests it makes.

## Theorems

* `Prog.returns_bind`, `Prog.returns_access`: The rules.
* `Prog.returns_forM`: A loop over numbers in order, by an invariant.
* `Prog.returns_iterate`: A loop that stops, by an invariant and a bound on its rounds.
* `Prog.returns_unreported`: A program that never reports, among those that may.
* `Prog.finishes_bind`, `Prog.finishes_forM`: The rules for every run.
-/

namespace KernelConsole

namespace Prog

variable {I : Interface} {σ : Type} {α β γ : Type} {h : Handler I σ} {fuel : Nat}

/-- The run ends with a value, and the value and the state are as `Q` says. -/
def Returns (h : Handler I σ) (fuel : Nat) (p : Prog I α) (s : σ) (Q : α → σ → Prop) : Prop :=
  ∃ a s', p.run h fuel s = .ok (a, s') ∧ Q a s'

/-- The rule of consequence for runs that end. -/
theorem returns_mono {p : Prog I α} {s : σ} {Q R : α → σ → Prop}
    (hp : p.Returns h fuel s Q) (hQR : ∀ a s', Q a s' → R a s') : p.Returns h fuel s R := by
  rcases hp with ⟨a, s', hrun, hQ⟩
  exact ⟨a, s', hrun, hQR a s' hQ⟩

/-- A run that returns ends in one way only. -/
theorem Returns.of_run {p : Prog I α} {s : σ} {Q : α → σ → Prop} (hp : p.Returns h fuel s Q)
    {a : α} {s' : σ} (hrun : p.run h fuel s = .ok (a, s')) : Q a s' := by
  rcases hp with ⟨b, t, hends, hQ⟩
  rw [hends] at hrun
  cases hrun
  exact hQ

theorem returns_pure {a : α} {s : σ} {Q : α → σ → Prop} (ha : Q a s) :
    (pure a : Prog I α).Returns h fuel s Q :=
  ⟨a, s, rfl, ha⟩

/-- The rule for a sequence: the first part returns, and from there the rest does. -/
theorem returns_bind {p : Prog I α} {f : α → Prog I β} {s : σ} {Q : β → σ → Prop}
    (hp : p.Returns h fuel s fun a s' => (f a).Returns h fuel s' Q) :
    (p >>= f).Returns h fuel s Q := by
  rcases hp with ⟨a, t, hfirst, b, s', hrest, hQ⟩
  refine ⟨b, s', ?_, hQ⟩
  rw [run_bind]
  exact bind_eq_ok.2 ⟨(a, t), hfirst, hrest⟩

theorem returns_access {bus : Bus σ} (a : Access) {s : σ} {Q : a.Reply → σ → Prop}
    (hQ : Q (bus a s).1 (bus a s).2) :
    (call a done : Io a.Reply).Returns bus.handler fuel s Q :=
  ⟨_, _, rfl, hQ⟩

/-- A loop over `n` numbers from `start` on, whose round for `k` takes the
    invariant at `k` to the invariant at `k + 1`. -/
theorem returns_forM {f : Nat → Prog I PUnit} (Inv : Nat → σ → Prop) (start n : Nat) {s : σ}
    (hstart : Inv start s)
    (hround : ∀ k s, start ≤ k → k < start + n → Inv k s →
      (f k).Returns h fuel s fun _ s' => Inv (k + 1) s') :
    ((List.range' start n).forM f).Returns h fuel s fun _ s' => Inv (start + n) s' := by
  induction n generalizing start s with
  | zero => exact returns_pure hstart
  | succ n ih =>
      -- The first number by itself, and the rest by induction from one number further on.
      rw [List.range'_succ]
      refine returns_bind (returns_mono (hround start s (Nat.le_refl _) (by omega) hstart) ?_)
      intro _ s' hs'
      rw [show start + (n + 1) = start + 1 + n by omega]
      refine ih (start + 1) hs' fun k t hle hlt hk => ?_
      exact hround k t (by omega) (by omega) hk

/-- A loop ends if every round either stops it or leaves fewer rounds to go, and the
    fuel is more than those. -/
theorem returns_repeatUntil {body : β → σ → Except Halt ((β ⊕ γ) × σ)} {Q : γ → σ → Prop}
    (Inv : Nat → β → σ → Prop)
    (hbody : ∀ k b s, Inv k b s → ∃ v s', body b s = .ok (v, s') ∧
      Sum.elim (fun b' s' => ∃ j < k, Inv j b' s') Q v s') :
    ∀ (n k : Nat) (b : β) (s : σ), k < n → Inv k b s →
      ∃ c s', repeatUntil body n b s = .ok (c, s') ∧ Q c s' := by
  -- The induction is on the fuel, which stays above the rounds to go.
  intro n
  induction n with
  | zero =>
      intro k b s hk
      exact absurd hk (Nat.not_lt_zero k)
  | succ n ih =>
      intro k b s hk hinv
      rcases hbody k b s hinv with ⟨v, s₁, hround, hnext⟩
      cases v with
      | inl b' =>
          -- another round, with fewer to go
          rcases hnext with ⟨j, hj, hinv'⟩
          rcases ih j b' s₁ (by omega) hinv' with ⟨c, s', hrest, hQ⟩
          exact ⟨c, s', bind_eq_ok.2 ⟨(.inl b', s₁), hround, hrest⟩, hQ⟩
      | inr c => exact ⟨c, s₁, bind_eq_ok.2 ⟨(.inr c, s₁), hround, rfl⟩, hnext⟩

/-- The rule for a loop in a program that ends. `Inv k` is the invariant with at most `k`
    rounds to go. -/
theorem returns_iterate {body : β → Prog I (β ⊕ γ)} {start : β} {s : σ} {Q : γ → σ → Prop}
    (Inv : Nat → β → σ → Prop) {k : Nat} (hk : k < fuel) (hstart : Inv k start s)
    (hbody : ∀ k b s, Inv k b s → (body b).Returns h fuel s
      (Sum.elim (fun b' s' => ∃ j < k, Inv j b' s') Q)) :
    (iterate body start).Returns h fuel s Q := by
  rcases returns_repeatUntil Inv hbody fuel k start s hk hstart with ⟨c, s', hloop, hQ⟩
  exact ⟨c, s', bind_eq_ok.2 ⟨(c, s'), hloop, rfl⟩, hQ⟩

/-- A program that never reports returns among those that may, and leaves the reports
    alone. -/
theorem returns_unreported {hw : Handler Hardware σ} {p : Io α} {s : σ} {records : List Record}
    {Q : α → σ × List Record → Prop}
    (hp : p.Returns hw fuel s fun a s' => Q a (s', records)) :
    p.unreported.Returns hw.keepingRecords fuel (s, records) Q := by
  rcases hp with ⟨a, s', hrun, hQ⟩
  refine ⟨a, (s', records), ?_, hQ⟩
  rw [run_unreported, hrun]
  rfl

/-- Whatever it is answered, the program makes only allowed requests, and ends with a value
    as `V` says. -/
inductive Finishes (P : I.Request → Prop) {α : Type} (V : α → Prop) : Prog I α → Prop
  | done {a : α} (value : V a) : Finishes P V (done a)
  | call {r : I.Request} {next : I.Reply r → Prog I α} (allowed : P r)
      (rest : ∀ a, Finishes P V (next a)) : Finishes P V (call r next)

variable {P : I.Request → Prop}

theorem finishes_pure {a : α} {V : α → Prop} (ha : V a) : (pure a : Prog I α).Finishes P V :=
  .done ha

theorem finishes_one {r : I.Request} {V : I.Reply r → Prop} (allowed : P r) (hV : ∀ a, V a) :
    (call r done : Prog I (I.Reply r)).Finishes P V :=
  .call allowed fun a => .done (hV a)

theorem finishes_mono {p : Prog I α} {V W : α → Prop} (hp : p.Finishes P V)
    (hVW : ∀ a, V a → W a) : p.Finishes P W := by
  induction hp with
  | done value => exact .done (hVW _ value)
  | call allowed _ ih => exact .call allowed ih

/-- A sequence finishes if its first part does, and the rest from every value of it. There is
    no state here, so nothing needs to be carried from the one to the other. -/
theorem finishes_bind {p : Prog I α} {f : α → Prog I β} {W : β → Prop}
    (hp : p.Finishes P fun a => (f a).Finishes P W) : (p >>= f).Finishes P W := by
  rw [bind_eq]
  induction hp with
  | done value => exact value
  | call allowed _ ih => exact .call allowed ih

/-- A loop over a list finishes if its rounds do. -/
theorem finishes_forM {xs : List β} {f : β → Prog I PUnit}
    (hf : ∀ x ∈ xs, (f x).Finishes P fun _ => True) :
    (xs.forM f).Finishes P fun _ => True := by
  induction xs with
  | nil => exact finishes_pure trivial
  | cons x rest ih =>
      refine finishes_bind (finishes_mono (hf x List.mem_cons_self) fun _ _ => ?_)
      exact ih fun y hy => hf y (List.mem_cons_of_mem _ hy)

end Prog

end KernelConsole
