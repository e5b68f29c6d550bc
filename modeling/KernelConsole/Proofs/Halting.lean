import KernelConsole.Proofs.Ensures

/-!
# How a Run Halts

A run halts because its handler does, because it runs out of fuel, or because the program
itself says so. The last is read off the tree, like the requests of the program. So whoever
answers a program that never says so without ever waiting for a lock that is held keeps it
from waiting for one.

`Prog.Proceeds` is what is left to say of a run once that is known: it does not end in a
deadlock, and if it ends with a value, the value and the state are as they should be.
Running out of fuel is no deadlock, so the first part says something of a run that goes on
for ever too.

## Main definitions

* `Clear`, `Prog.Proceeds`: A step or a run without a deadlock, and what holds if it ends.
* `Prog.OrDeadlock`: One outcome is the other or a deadlock.

## Theorems

* `Prog.proceeds_bind`, `Prog.proceeds_call`: The rules for a run.
* `Prog.Only.proceeds`: What allowed requests keep, without a deadlock.
* `Prog.OrDeadlock.run`: Answers that stop a run, and do nothing else to it.
-/

namespace KernelConsole

/-- The outcome of a step is no deadlock, and a value is as `Q` says. -/
structure Clear {α : Type} (x : Except Halt α) (Q : α → Prop) : Prop where
  ne_deadlock : x ≠ .error .deadlock
  of_ok : ∀ a, x = .ok a → Q a

namespace Clear

variable {α β γ σ : Type}

/-- A step that gives a value is no deadlock. -/
theorem ok {a : α} {Q : α → Prop} (ha : Q a) : Clear (.ok a) Q where
  ne_deadlock hdead := nomatch hdead
  of_ok b hb := by
    cases hb
    exact ha

/-- A step that halts for another reason gives no value to say anything of. -/
theorem error {why : Halt} {Q : α → Prop} (hne : why ≠ .deadlock) : Clear (.error why) Q where
  ne_deadlock hdead := hne (Except.error.inj hdead)
  of_ok _ hb := nomatch hb

/-- What is known of the value may be weakened. -/
theorem mono {x : Except Halt α} {Q R : α → Prop} (hx : Clear x Q) (hQR : ∀ a, Q a → R a) :
    Clear x R :=
  ⟨hx.ne_deadlock, fun a ha => hQR a (hx.of_ok a ha)⟩

/-- A sequence of steps is clear if the first is, and if from every value it may give the rest
    is. -/
theorem bind {x : Except Halt α} {f : α → Except Halt β} {Q : β → Prop}
    (hx : Clear x fun a => Clear (f a) Q) : Clear (x.bind f) Q := by
  cases x with
  | error why => exact .error fun hdead => hx.ne_deadlock (hdead ▸ rfl)
  | ok a => exact hx.of_ok a rfl

/-- A loop whose rounds are clear and keep an invariant is clear. -/
theorem repeatUntil {body : β → σ → Except Halt ((β ⊕ γ) × σ)} {K : σ → Prop}
    (hbody : ∀ b s, K s → Clear (body b s) fun v => K v.2) (fuel : Nat) (b : β) {s : σ}
    (hs : K s) : Clear (KernelConsole.repeatUntil body fuel b s) fun v => K v.2 := by
  induction fuel generalizing b s with
  | zero => exact .error nofun
  | succ fuel ih =>
      refine .bind ((hbody b s hs).mono ?_)
      rintro ⟨b' | c, s'⟩ hs'
      · exact ih b' hs'
      · exact .ok hs'

end Clear

namespace Prog

variable {I : Interface} {σ α β γ : Type} {h : Handler I σ} {fuel : Nat}

/-- The run does not end in a deadlock, and if it ends with a value, the value and the
    state are as `Q` says. -/
def Proceeds (h : Handler I σ) (fuel : Nat) (p : Prog I α) (s : σ) (Q : α → σ → Prop) : Prop :=
  Clear (p.run h fuel s) fun v => Q v.1 v.2

theorem proceeds_mono {p : Prog I α} {s : σ} {Q R : α → σ → Prop} (hp : p.Proceeds h fuel s Q)
    (hQR : ∀ a s', Q a s' → R a s') : p.Proceeds h fuel s R :=
  Clear.mono hp fun v => hQR v.1 v.2

/-- A program that ends at once asks nobody for anything, and waits for nothing. -/
theorem proceeds_pure {a : α} {s : σ} {Q : α → σ → Prop} (ha : Q a s) :
    (pure a : Prog I α).Proceeds h fuel s Q :=
  Clear.ok ha

/-- The rule for a sequence. It has the shape of that for `Ensures`, so a proof of the one can
    be followed to prove the other. -/
theorem proceeds_bind {p : Prog I α} {f : α → Prog I β} {s : σ} {Q : β → σ → Prop}
    (hp : p.Proceeds h fuel s fun a s' => (f a).Proceeds h fuel s' Q) :
    (p >>= f).Proceeds h fuel s Q := by
  unfold Proceeds
  rw [run_bind]
  exact Clear.bind hp

theorem proceeds_map {p : Prog I α} {f : α → β} {s : σ} {Q : β → σ → Prop}
    (hp : p.Proceeds h fuel s fun a s' => Q (f a) s') : (f <$> p).Proceeds h fuel s Q := by
  rw [map_eq_pure_bind]
  exact proceeds_bind (proceeds_mono hp fun _ _ ha => proceeds_pure ha)

/-- A request that is answered, and not with a deadlock, leaves the rest to go on from any
    answer. -/
theorem proceeds_call {r : I.Request} {next : I.Reply r → Prog I α} {s : σ} {Q : α → σ → Prop}
    (hr : Clear (h r s) fun v => (next v.1).Proceeds h fuel v.2 Q) :
    (call r next).Proceeds h fuel s Q :=
  Clear.bind hr

/-- A program of one request proceeds as its answer does. -/
theorem proceeds_one {r : I.Request} {s : σ} {Q : I.Reply r → σ → Prop}
    (hr : Clear (h r s) fun v => Q v.1 v.2) :
    (call r done : Prog I (I.Reply r)).Proceeds h fuel s Q :=
  proceeds_call (hr.mono fun _ hQ => proceeds_pure hQ)

/-- What every allowed request keeps, a run of only such requests keeps, without a
    deadlock. -/
theorem Only.proceeds {P : I.Request → Prop} {K : σ → Prop}
    (hK : ∀ r, P r → ∀ s, K s → Clear (h r s) fun v => K v.2) {p : Prog I α}
    (hp : p.Only P (· ≠ .deadlock)) {s : σ} (hs : K s) :
    p.Proceeds h fuel s fun _ s' => K s' := by
  induction hp generalizing s with
  | done a => exact Clear.ok hs
  | halt hne => exact Clear.error hne
  | call allowed _ ih =>
      -- The answer keeps `K`, so the rest starts where the induction wants it.
      exact proceeds_call ((hK _ allowed s hs).mono fun v hv => ih v.1 hv)
  | loop _ _ ihb ih =>
      -- A round is such a program too, so `K` is an invariant of the loop.
      exact Clear.bind ((Clear.repeatUntil (fun b s hs => ihb b hs) fuel _ hs).mono
        fun v hv => ih v.1 hv)

/-- One outcome is the other or a deadlock. -/
def OrDeadlock (x y : Except Halt α) : Prop := x = y ∨ x = .error .deadlock

namespace OrDeadlock

theorem refl (x : Except Halt α) : OrDeadlock x x := .inl rfl

theorem bind {x y : Except Halt α} {f g : α → Except Halt β} (hxy : OrDeadlock x y)
    (hfg : ∀ a, OrDeadlock (f a) (g a)) : OrDeadlock (x.bind f) (y.bind g) := by
  rcases hxy with rfl | rfl
  · cases x with
    | error why => exact .inl rfl
    | ok a => exact hfg a
  · exact .inr rfl

theorem repeatUntil {body body' : β → σ → Except Halt ((β ⊕ γ) × σ)}
    (hbody : ∀ b s, OrDeadlock (body' b s) (body b s)) (fuel : Nat) (b : β) (s : σ) :
    OrDeadlock (KernelConsole.repeatUntil body' fuel b s)
      (KernelConsole.repeatUntil body fuel b s) := by
  induction fuel generalizing b s with
  | zero => exact .refl _
  | succ fuel ih =>
      refine .bind (hbody b s) ?_
      rintro ⟨b' | c, s'⟩
      · exact ih b' s'
      · exact .refl _

/-- If every answer is the same or a deadlock, so is the outcome of a run. -/
theorem run {h' : Handler I σ} (hanswers : ∀ r s, OrDeadlock (h' r s) (h r s)) (p : Prog I α)
    (s : σ) : OrDeadlock (p.run h' fuel s) (p.run h fuel s) := by
  induction p generalizing s with
  | done a => exact .refl _
  | halt why => exact .refl _
  | call r next ih => exact .bind (hanswers r s) fun v => ih v.1 v.2
  | loop body start next ihb ih =>
      exact .bind (repeatUntil ihb fuel start s) fun v => ih v.1 v.2

end OrDeadlock

end Prog

end KernelConsole
