import Mathlib.Logic.Function.Iterate
import KernelConsole.Proofs.Traces

/-!
# Programs That End and Programs That Do Not

A program ends on a bus if some fuel is enough for it, and goes on for ever if none is.
Nothing else can happen to one that never halts, but for a given program it takes a proof
that one of the two does.

Only loops go on for ever. A drain takes one thing after the other from a device until the
device has no more, so it ends exactly if the device ever has no more, in the states that
the drain itself leads it through. What comes before a drain and ends only says in which
state the drain starts.

Less fuel than a run needs makes it run out and never end otherwise, so fuel cannot hide a
program that goes on for ever behind one that ends.

## Main definitions

* `Bus.Gives`, `Bus.Ends`, `Bus.NeverEnds`: How a program that may report ends, and that it
  does not.
* `Bus.EndsIff`: Under which condition it ends.
* `Bus.silent`: A bus as a handler that keeps neither events nor reports.
* `Prog.Drains`: A loop that takes from a device until it has no more.

## Theorems

* `Prog.run_or_outOfFuel`: A run that ends runs out or ends the same way on other fuel.
* `Bus.gives_of_returns`: A program that returns and never reports gives its value.
* `Bus.gives_bind`, `Bus.endsIff_after`, `Bus.endsIff_before`: The rules for a sequence.
* `Prog.Drains.endsIff`: The rule for a loop.
-/

namespace KernelConsole

/-- A loop that ends runs out or ends the same way when it is given less fuel, and when its
    body is given less. -/
theorem repeatUntil_or_outOfFuel {β γ σ : Type} {body body' : β → σ → Except Halt ((β ⊕ γ) × σ)}
    (hbody : ∀ b s v, body b s = .ok v → body' b s = .ok v ∨ body' b s = .error .outOfFuel) :
    ∀ {m n : Nat}, m ≤ n → ∀ {b : β} {s : σ} {v : γ × σ}, repeatUntil body n b s = .ok v →
      repeatUntil body' m b s = .ok v ∨ repeatUntil body' m b s = .error .outOfFuel := by
  -- By induction on the smaller fuel: a round goes the same way, or runs out and so does
  -- the loop.
  intro m
  induction m with
  | zero => exact fun _ _ _ _ _ => Or.inr rfl
  | succ m ih =>
      intro n hmn b s v hrun
      obtain ⟨k, rfl⟩ : ∃ k, n = k + 1 := ⟨n - 1, by omega⟩
      rcases bind_eq_ok.1 hrun with ⟨⟨next, s₁⟩, hround, hrest⟩
      rcases hbody b s _ hround with hsame | hout
      · simp only [repeatUntil, hsame]
        cases next with
        | inl b' => exact ih (by omega) hrest
        | inr c => exact Or.inl hrest
      · simp only [repeatUntil, hout]
        exact Or.inr rfl

namespace Prog

variable {I : Interface} {σ α β γ X : Type} {h : Handler I σ}

theorem run_or_outOfFuel_of_le {m n : Nat} (hmn : m ≤ n) (p : Prog I α) :
    ∀ {s : σ} {v : α × σ}, p.run h n s = .ok v →
      p.run h m s = .ok v ∨ p.run h m s = .error .outOfFuel := by
  -- Only a loop uses up fuel, and its rounds are programs that the induction has been over.
  induction p with
  | done a => exact fun hrun => Or.inl hrun
  | halt why => exact fun hrun => nomatch hrun
  | call r next ih =>
      intro s v hrun
      rcases bind_eq_ok.1 hrun with ⟨w, hreply, hrest⟩
      simp only [run, hreply]
      exact ih _ hrest
  | loop body start next ihb ih =>
      intro s v hrun
      rcases bind_eq_ok.1 hrun with ⟨w, hloop, hrest⟩
      rcases repeatUntil_or_outOfFuel (fun b s v hround => ihb b hround) hmn hloop with
        hsame | hout
      · simp only [run, hsame]
        exact ih _ hrest
      · simp only [run, hout]
        exact Or.inr rfl

/-- A run that ends on some fuel ends the same way on any other, or runs out. -/
theorem run_or_outOfFuel {p : Prog I α} {s : σ} {v : α × σ} {n : Nat} (hrun : p.run h n s = .ok v)
    (m : Nat) : p.run h m s = .ok v ∨ p.run h m s = .error .outOfFuel := by
  rcases Nat.le_total m n with hle | hle
  · exact run_or_outOfFuel_of_le hle p hrun
  · exact Or.inl (run_mono h hle p hrun)

/-- The rounds of a loop take from a device, whose state is seen through `R`, and each
    round either finds it empty and stops the loop, or takes something and goes on. -/
structure Drains (h : Handler I σ) (body : β → Prog I (β ⊕ γ)) (R : β → σ → X → Prop)
    (empty : X → Prop) (take : X → X) : Prop where
  stops : ∀ fuel b s x, R b s x → empty x →
    (body b).Returns h fuel s fun v _ => ∃ c, v = .inr c
  goes : ∀ fuel b s x, R b s x → ¬empty x →
    (body b).Returns h fuel s fun v s' => ∃ b', v = .inl b' ∧ R b' s' (take x)

variable {body : β → Prog I (β ⊕ γ)} {R : β → σ → X → Prop} {empty : X → Prop} {take : X → X}

/-- A device that is empty after `n` takes is drained in `n + 1` rounds. -/
theorem Drains.ends (hd : Drains h body R empty take) (fuel : Nat) :
    ∀ (n rounds : Nat) (b : β) (s : σ) (x : X), n < rounds → R b s x → empty (take^[n] x) →
      ∃ v, repeatUntil (fun b s => (body b).run h fuel s) rounds b s = .ok v := by
  intro n rounds
  induction rounds generalizing n with
  | zero => exact fun _ _ _ hn => absurd hn (Nat.not_lt_zero n)
  | succ rounds ih =>
      intro b s x hn hR hempty
      by_cases hnow : empty x
      · rcases hd.stops fuel b s x hR hnow with ⟨_, s₁, hround, c, rfl⟩
        exact ⟨(c, s₁), bind_eq_ok.2 ⟨_, hround, rfl⟩⟩
      · -- The device is not empty, so there is at least one take to go.
        obtain ⟨k, rfl⟩ : ∃ k, n = k + 1 :=
          Nat.exists_eq_succ_of_ne_zero fun hzero => hnow (by rwa [hzero] at hempty)
        rcases hd.goes fuel b s x hR hnow with ⟨_, s₁, hround, b', rfl, hR'⟩
        rcases ih k b' s₁ (take x) (by omega) hR' hempty with ⟨v, hrest⟩
        exact ⟨v, bind_eq_ok.2 ⟨_, hround, hrest⟩⟩

/-- A device that is never empty is drained for ever. -/
theorem Drains.never (hd : Drains h body R empty take) (fuel : Nat) :
    ∀ (rounds : Nat) (b : β) (s : σ) (x : X), R b s x → (∀ n, ¬empty (take^[n] x)) →
      repeatUntil (fun b s => (body b).run h fuel s) rounds b s = .error .outOfFuel := by
  -- Every round finds something to take, so the rounds are used up one by one.
  intro rounds
  induction rounds with
  | zero => exact fun _ _ _ _ _ => rfl
  | succ rounds ih =>
      intro b s x hR hfull
      rcases hd.goes fuel b s x hR (hfull 0) with ⟨_, s₁, hround, b', rfl, hR'⟩
      simp only [repeatUntil, hround]
      exact ih b' s₁ (take x) hR' fun n => hfull (n + 1)

end Prog

open Prog

namespace Bus

variable {σ α β : Type} (bus : Bus σ)

/-- A program that may report ends on a bus, with a value and a state that the bus is left
    in. -/
def Gives (p : LoggedIo α) (m : σ) (a : α) (m' : σ) : Prop :=
  ∃ fuel events, bus.observe fuel p m = .ok (a, events, m')

/-- It ends, and so after finitely many accesses. -/
def Ends (p : LoggedIo α) (m : σ) : Prop := ∃ a m', bus.Gives p m a m'

/-- It goes on for ever: no fuel is enough. -/
def NeverEnds (p : LoggedIo α) (m : σ) : Prop :=
  ∀ fuel, bus.observe fuel p m = .error .outOfFuel

/-- It ends under a condition, and goes on for ever otherwise. -/
structure EndsIff (p : LoggedIo α) (m : σ) (condition : Prop) : Prop where
  ends : condition → bus.Ends p m
  never : ¬condition → bus.NeverEnds p m

/-- A bus as a handler that keeps neither events nor reports. -/
def silent : Handler Reporting σ
  | .access a, m => .ok (bus a m)
  | .report _, m => .ok ((), m)

variable {bus} {p : LoggedIo α} {f : α → LoggedIo β} {m m₁ m₂ : σ} {a : α} {b : β}
  {condition : Prop}

/-- Nothing reads the events and the reports, so the state can be without them. -/
theorem run_observed (bus : Bus σ) (fuel : Nat) (p : LoggedIo α)
    (s : (σ × List Event) × List Record) :
    forget (fun s => s.1.1) (p.run bus.handler.recorded.keepingRecords fuel s) =
      p.run bus.silent fuel s.1.1 := by
  refine run_forget ?_ fuel p s
  intro r s
  cases r with
  | access access => rfl
  | report record => rfl

theorem run_silent (fuel : Nat) (p : LoggedIo α) (m : σ) :
    p.run bus.silent fuel m = (bus.observe fuel p m).bind fun v => .ok (v.1, v.2.2) := by
  rw [← bus.run_observed fuel p ((m, []), [])]
  unfold observe forget
  cases p.run bus.handler.recorded.keepingRecords fuel ((m, []), []) with
  | error why => rfl
  | ok v => rfl

theorem gives_iff : bus.Gives p m a m₁ ↔ ∃ fuel, p.run bus.silent fuel m = .ok (a, m₁) := by
  simp only [run_silent, bind_eq_ok, Gives]
  refine exists_congr fun fuel => ⟨fun ⟨events, hrun⟩ => ⟨_, hrun, rfl⟩, ?_⟩
  rintro ⟨⟨_, events, _⟩, hrun, hvalue⟩
  cases hvalue
  exact ⟨events, hrun⟩

theorem neverEnds_iff :
    bus.NeverEnds p m ↔ ∀ fuel, p.run bus.silent fuel m = .error .outOfFuel := by
  refine forall_congr' fun fuel => ?_
  rw [run_silent]
  cases bus.observe fuel p m with
  | error why =>
      refine ⟨fun h => ?_, fun h => ?_⟩
      · cases h
        rfl
      · cases h
        rfl
  | ok v => exact ⟨nofun, nofun⟩

/-- A run that was watched to end gives its value. -/
theorem gives_of_observes {fuel : Nat} {Q : α → List Event → σ → Prop}
    (hp : p.Observes bus fuel m Q) : ∃ a events m₁, bus.Gives p m a m₁ ∧ Q a events m₁ := by
  rcases hp.observe with ⟨a, events, m₁, hrun, hQ⟩
  exact ⟨a, events, m₁, ⟨fuel, events, hrun⟩, hQ⟩

/-- A program that never reports runs as it does without the reports. -/
theorem run_silent_unreported (fuel : Nat) (p : Io α) (m : σ) :
    p.unreported.run bus.silent fuel m = p.run bus.handler fuel m :=
  run_interpret _ _ _ fuel (fun _ _ => rfl) p m

theorem returns_silent {fuel : Nat} {p : Io α} {Q : α → σ → Prop}
    (hp : p.Returns bus.handler fuel m Q) : p.unreported.Returns bus.silent fuel m Q := by
  unfold Returns
  rw [run_silent_unreported]
  exact hp

/-- A program that never reports and returns gives its value among those that may. -/
theorem gives_of_returns {fuel : Nat} {p : Io α} {Q : α → σ → Prop}
    (hp : p.Returns bus.handler fuel m Q) : ∃ a m₁, bus.Gives p.unreported m a m₁ ∧ Q a m₁ := by
  rcases returns_silent hp with ⟨a, m₁, hrun, hQ⟩
  exact ⟨a, m₁, gives_iff.2 ⟨fuel, hrun⟩, hQ⟩

/-- What every run of a program ensures, the value that it gives satisfies. -/
theorem Gives.ensures {Q : α → σ → Prop} (hp : bus.Gives p m a m₁)
    (hQ : ∀ fuel, p.Ensures bus.silent fuel m Q) : Q a m₁ := by
  rcases gives_iff.1 hp with ⟨fuel, hrun⟩
  exact hQ fuel a m₁ hrun

theorem gives_bind (hp : bus.Gives p m a m₁) (hf : bus.Gives (f a) m₁ b m₂) :
    bus.Gives (p >>= f) m b m₂ := by
  rcases gives_iff.1 hp with ⟨k, hfirst⟩
  rcases gives_iff.1 hf with ⟨n, hrest⟩
  refine gives_iff.2 ⟨max k n, ?_⟩
  rw [run_bind, run_mono _ (Nat.le_max_left k n) p hfirst]
  exact run_mono _ (Nat.le_max_right k n) (f a) hrest

/-- What starts with something that goes on for ever goes on for ever. -/
theorem neverEnds_bind (hp : bus.NeverEnds p m) : bus.NeverEnds (p >>= f) m :=
  neverEnds_iff.2 fun fuel => by
    rw [run_bind, neverEnds_iff.1 hp fuel]
    rfl

/-- What ends and then goes on for ever goes on for ever. -/
theorem neverEnds_after (hp : bus.Gives p m a m₁) (hf : bus.NeverEnds (f a) m₁) :
    bus.NeverEnds (p >>= f) m := by
  rcases gives_iff.1 hp with ⟨k, hfirst⟩
  refine neverEnds_iff.2 fun fuel => ?_
  rw [run_bind]
  -- Either this fuel is enough for the start and the rest runs out, or the start does.
  rcases run_or_outOfFuel hfirst fuel with hsame | hout
  · rw [hsame]
    exact neverEnds_iff.1 hf fuel
  · rw [hout]
    rfl

/-- After something that ends, the rest decides. -/
theorem endsIff_after (hp : bus.Gives p m a m₁) (hf : bus.EndsIff (f a) m₁ condition) :
    bus.EndsIff (p >>= f) m condition where
  ends hcondition := by
    rcases hf.ends hcondition with ⟨b, m₂, hrest⟩
    exact ⟨b, m₂, gives_bind hp hrest⟩
  never hcondition := neverEnds_after hp (hf.never hcondition)

/-- Before something that ends, the start decides. -/
theorem endsIff_before (hp : bus.EndsIff p m condition)
    (hf : ∀ a m₁, bus.Gives p m a m₁ → bus.Ends (f a) m₁) : bus.EndsIff (p >>= f) m condition where
  ends hcondition := by
    -- The rest ends whatever the start has given, so only the start can go on for ever.
    rcases hp.ends hcondition with ⟨a, m₁, hfirst⟩
    rcases hf a m₁ hfirst with ⟨b, m₂, hrest⟩
    exact ⟨b, m₂, gives_bind hfirst hrest⟩
  never hcondition := neverEnds_bind (hp.never hcondition)

end Bus

/-- A drain ends exactly if its device is empty after some takes. -/
theorem Prog.Drains.endsIff {σ β γ X : Type} {bus : Bus σ} {body : β → LoggedIo (β ⊕ γ)}
    {R : β → σ → X → Prop} {empty : X → Prop} {take : X → X}
    (hd : Drains bus.silent body R empty take) {b : β} {m : σ} {x : X} (hR : R b m x) :
    bus.EndsIff (iterate body b) m (∃ n, empty (take^[n] x)) where
  ends := by
    rintro ⟨n, hempty⟩
    rcases hd.ends (n + 1) n (n + 1) b m x (Nat.lt_succ_self n) hR hempty with ⟨⟨c, m₁⟩, hrun⟩
    exact ⟨c, m₁, Bus.gives_iff.2 ⟨n + 1, bind_eq_ok.2 ⟨_, hrun, rfl⟩⟩⟩
  never hfull := by
    refine Bus.neverEnds_iff.2 fun fuel => ?_
    have hloop := hd.never fuel fuel b m x hR fun n hempty => hfull ⟨n, hempty⟩
    simp only [iterate, run, hloop]
    rfl

end KernelConsole
