import KernelConsole.Proofs.Ensures
import KernelConsole.Proofs.Returns

/-!
# Two Runs Side by Side

Statements that compare two runs are made with `Prog.Mirrors`: if the first run ends
with a value, so does the second, and the values and states they end in are related
as they should be. The two may be runs of different programs, answered differently,
and the second may have more fuel.

The rules walk through both programs in step. A sequence is split on both sides, a
request is answered on both, and a loop goes round as often on both, with an
invariant that relates a round of the one to the same round of the other. Where the
two do not keep in step, each is run for itself and the ends are compared.

A program that only makes requests which are answered alike is its own mirror.

## Main definitions

* `Prog.Mirrors`: If one run ends, so does another.

## Theorems

* `Prog.mirrors_bind`, `Prog.mirrors_call`, `Prog.mirrors_repeatUntil`: The rules.
* `Prog.mirrors_apart`: Two runs that are not in step.
* `Prog.Only.mirrors`: One program, answered alike on both sides.
-/

namespace KernelConsole

namespace Prog

variable {I J : Interface} {σ τ : Type} {α β γ δ : Type}
  {h : Handler I σ} {g : Handler J τ} {m n : Nat}

/-- If the run of `p` ends with a value, the run of `q` does, and the two values and
    states are as `Q` says. -/
def Mirrors (h : Handler I σ) (m : Nat) (p : Prog I α) (s : σ) (g : Handler J τ) (n : Nat)
    (q : Prog J β) (t : τ) (Q : α → σ → β → τ → Prop) : Prop :=
  ∀ a s', p.run h m s = .ok (a, s') → ∃ b t', q.run g n t = .ok (b, t') ∧ Q a s' b t'

theorem mirrors_mono {p : Prog I α} {q : Prog J β} {s : σ} {t : τ} {Q R : α → σ → β → τ → Prop}
    (hpq : p.Mirrors h m s g n q t Q) (hQR : ∀ a s' b t', Q a s' b t' → R a s' b t') :
    p.Mirrors h m s g n q t R := by
  intro a s' hrun
  rcases hpq a s' hrun with ⟨b, t', hrun', hQ⟩
  exact ⟨b, t', hrun', hQR a s' b t' hQ⟩

theorem mirrors_pure {a : α} {b : β} {s : σ} {t : τ} {Q : α → σ → β → τ → Prop}
    (hab : Q a s b t) : (pure a : Prog I α).Mirrors h m s g n (pure b : Prog J β) t Q := by
  intro a' s' hrun
  cases hrun
  exact ⟨b, t, rfl, hab⟩

/-- The rule for two sequences that go in step: their first parts mirror each other, and from
    there their rests do. -/
theorem mirrors_bind {p : Prog I α} {q : Prog J β} {f : α → Prog I γ} {k : β → Prog J δ} {s : σ}
    {t : τ} {Q : γ → σ → δ → τ → Prop}
    (hpq : p.Mirrors h m s g n q t fun a s' b t' => (f a).Mirrors h m s' g n (k b) t' Q) :
    (p >>= f).Mirrors h m s g n (q >>= k) t Q := by
  intro c s'' hrun
  rw [run_bind] at hrun
  rcases bind_eq_ok.1 hrun with ⟨⟨a, s'⟩, hfirst, hrest⟩
  rcases hpq a s' hfirst with ⟨b, t', hfirst', hnext⟩
  rcases hnext c s'' hrest with ⟨d, t'', hrest', hQ⟩
  refine ⟨d, t'', ?_, hQ⟩
  rw [run_bind]
  exact bind_eq_ok.2 ⟨(b, t'), hfirst', hrest'⟩

theorem mirrors_map {p : Prog I α} {q : Prog J β} {f : α → γ} {k : β → δ} {s : σ} {t : τ}
    {Q : γ → σ → δ → τ → Prop}
    (hpq : p.Mirrors h m s g n q t fun a s' b t' => Q (f a) s' (k b) t') :
    (f <$> p).Mirrors h m s g n (k <$> q) t Q := by
  rw [map_eq_pure_bind, map_eq_pure_bind]
  exact mirrors_bind (mirrors_mono hpq fun _ _ _ _ hQ => mirrors_pure hQ)

/-- Two requests that need not be the same mirror each other if whatever the one is answered,
    the other is answered something that goes with it. -/
theorem mirrors_call {r : I.Request} {r' : J.Request} {f : I.Reply r → Prog I α}
    {k : J.Reply r' → Prog J β} {s : σ} {t : τ} {Q : α → σ → β → τ → Prop}
    (hr : ∀ a s', h r s = .ok (a, s') →
      ∃ b t', g r' t = .ok (b, t') ∧ (f a).Mirrors h m s' g n (k b) t' Q) :
    (call r f).Mirrors h m s g n (call r' k) t Q := by
  intro c s'' hrun
  rcases bind_eq_ok.1 hrun with ⟨⟨a, s'⟩, hreply, hrest⟩
  rcases hr a s' hreply with ⟨b, t', hreply', hnext⟩
  rcases hnext c s'' hrest with ⟨d, t'', hrest', hQ⟩
  exact ⟨d, t'', bind_eq_ok.2 ⟨(b, t'), hreply', hrest'⟩, hQ⟩

/-- Two programs that are not run in step. The second has to end in any case. -/
theorem mirrors_apart {p : Prog I α} {q : Prog J β} {s : σ} {t : τ} {Q : α → σ → Prop}
    {R : β → τ → Prop} (hp : p.Ensures h m s Q) (hq : q.Returns g n t R) :
    p.Mirrors h m s g n q t fun a s' b t' => Q a s' ∧ R b t' := by
  intro a s' hrun
  rcases hq with ⟨b, t', hrun', hR⟩
  exact ⟨b, t', hrun', hp a s' hrun, hR⟩

/-- A loop is mirrored by one whose rounds mirror its own, if that may go round at
    least as often. -/
theorem mirrors_repeatUntil {body : β → σ → Except Halt ((β ⊕ γ) × σ)}
    {body' : δ → τ → Except Halt ((δ ⊕ α) × τ)} {Inv : β → σ → δ → τ → Prop}
    {Q : γ → σ → α → τ → Prop}
    (hbody : ∀ b s d t, Inv b s d t → ∀ v s', body b s = .ok (v, s') →
      ∃ w t', body' d t = .ok (w, t') ∧
        Sum.LiftRel (fun b d => Inv b s' d t') (fun c a => Q c s' a t') v w) :
    ∀ {m n : Nat}, m ≤ n → ∀ b s d t, Inv b s d t → ∀ c s',
      repeatUntil body m b s = .ok (c, s') →
        ∃ a t', repeatUntil body' n d t = .ok (a, t') ∧ Q c s' a t' := by
  intro m
  induction m with
  | zero =>
      intro n _ b s d t _ c s' hrun
      cases hrun
  | succ m ih =>
      intro n hmn b s d t hinv c s' hrun
      -- The second loop may go round as often at least, so it has a round left as well.
      obtain ⟨k, rfl⟩ : ∃ k, n = k + 1 := ⟨n - 1, by omega⟩
      rcases bind_eq_ok.1 hrun with ⟨⟨v, s₁⟩, hround, hrest⟩
      rcases hbody b s d t hinv v s₁ hround with ⟨w, t₁, hround', hsum⟩
      cases hsum with
      | inl hinv' =>
          -- both go round again
          rcases ih (Nat.le_of_succ_le_succ hmn) _ s₁ _ t₁ hinv' c s' hrest with ⟨a, t', hrest', hQ⟩
          exact ⟨a, t', bind_eq_ok.2 ⟨(.inl _, t₁), hround', hrest'⟩, hQ⟩
      | inr hQ =>
          -- both stop
          cases hrest
          exact ⟨_, t₁, bind_eq_ok.2 ⟨(.inr _, t₁), hround', rfl⟩, hQ⟩

/-- A program that only makes requests which are answered alike on both sides mirrors
    itself. -/
theorem Only.mirrors {h' : Handler I τ} {P : I.Request → Prop} {K : σ → τ → Prop}
    (hmn : m ≤ n)
    (hanswer : ∀ r, P r → ∀ s t, K s t → ∀ a s', h r s = .ok (a, s') →
      ∃ t', h' r t = .ok (a, t') ∧ K s' t')
    {p : Prog I α} (hp : p.Only P) {s : σ} {t : τ} (hst : K s t) :
    p.Mirrors h m s h' n p t fun a s' b t' => a = b ∧ K s' t' := by
  induction hp generalizing s t with
  | done a => exact mirrors_pure ⟨rfl, hst⟩
  | halt why =>
      intro a s' hrun
      cases hrun
  | call allowed _ ih =>
      refine mirrors_call fun a s' hreply => ?_
      rcases hanswer _ allowed s t hst a s' hreply with ⟨t', hreply', hst'⟩
      exact ⟨a, t', hreply', ih a hst'⟩
  | loop _ _ ihb ih =>
      -- A round is such a program too, so both sides are in the same round of the loop.
      rename_i body start next _ _
      intro a s' hrun
      rcases bind_eq_ok.1 hrun with ⟨⟨c, s₁⟩, hloop, hrest⟩
      have hrounds : ∀ b s b' t, b = b' ∧ K s t → ∀ v s', (body b).run h m s = .ok (v, s') →
          ∃ w t', (body b').run h' n t = .ok (w, t') ∧
            Sum.LiftRel (fun b b' => b = b' ∧ K s' t') (fun c c' => c = c' ∧ K s' t') v w := by
        rintro b s _ t ⟨rfl, hst⟩ v s' hround
        obtain ⟨w, t', hround', rfl, hst'⟩ := ihb b hst v s' hround
        refine ⟨v, t', hround', ?_⟩
        cases v with
        | inl b' => exact .inl ⟨rfl, hst'⟩
        | inr c => exact .inr ⟨rfl, hst'⟩
      obtain ⟨_, t₁, hloop', rfl, hst₁⟩ := mirrors_repeatUntil (Q := fun c s c' t => c = c' ∧ K s t)
        hrounds hmn start s start t ⟨rfl, hst⟩ c s₁ hloop
      rcases ih c hst₁ a s' hrest with ⟨b, t', hrest', hQ⟩
      exact ⟨b, t', bind_eq_ok.2 ⟨(c, t₁), hloop', hrest'⟩, hQ⟩

end Prog

end KernelConsole
