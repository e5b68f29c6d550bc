import KernelConsole.Hardware.Bus
import KernelConsole.Log.Reporting

/-!
# What a Run Ensures

Statements about a run that ends are made with `Prog.Ensures`: if a program ends
with a value, the value and the state it ends in are as they should be. A run
that halts, or never ends, satisfies any such statement, so a claim that a run
ends is always made apart from it.

The rules follow the shape of a program. A sequence is split at its first part,
a request at its reply, and a loop is left through an invariant of its rounds.
Fuel is a parameter that no rule looks at.

`Prog.Only` is the other kind of statement: which requests a program may make at
all, and for which causes it may halt by itself, whatever it is answered. It is
read off the tree, and what every request of a kind keeps, a program of only such
requests keeps. Where the causes do not matter they are left out.

## Main definitions

* `Prog.Ensures`: What holds if a run ends.
* `Prog.Only`: Which requests a program may make, and how it may halt.

## Theorems

* `Prog.ensures_bind`, `Prog.ensures_call`, `Prog.ensures_iterate`: The rules.
* `Prog.ensures_unreported`: A program that never reports, among those that may.
* `Prog.ensures_recorded`, `Prog.ensures_observed`: An access under an analyser.
* `Prog.run_watched`, `Prog.ensures_watched`: What the analyser sees is seen by nobody else.
* `Prog.Only.mono`: More may be allowed.
* `Prog.Only.bind`, `Prog.Only.forM`: Sequences of allowed requests.
* `Prog.Only.interpret`: Requests that are replaced by allowed ones.
* `Prog.only_true`: Every program, where everything is allowed.
* `Prog.Only.ensures`: What allowed requests keep, a run keeps.
-/

namespace KernelConsole

/-- What a step gives is what is left of it when the cause of a halt is forgotten, the form in
    which `decide` can compare two outcomes. -/
theorem eq_ok_of_toOption {ε α : Type} {x : Except ε α} {a : α} (h : x.toOption = some a) :
    x = .ok a := by
  cases x with
  | error why => exact nomatch h
  | ok b => exact congrArg Except.ok (Option.some.inj h)

namespace Prog

variable {I : Interface} {σ : Type} {α β γ : Type} {h : Handler I σ} {fuel : Nat}

/-- If the run ends with a value, the value and the state are as `Q` says. -/
def Ensures (h : Handler I σ) (fuel : Nat) (p : Prog I α) (s : σ) (Q : α → σ → Prop) : Prop :=
  ∀ a s', p.run h fuel s = .ok (a, s') → Q a s'

theorem ensures_mono {p : Prog I α} {s : σ} {Q R : α → σ → Prop}
    (hp : p.Ensures h fuel s Q) (hQR : ∀ a s', Q a s' → R a s') : p.Ensures h fuel s R :=
  fun a s' hrun => hQR a s' (hp a s' hrun)

theorem ensures_and {p : Prog I α} {s : σ} {Q R : α → σ → Prop} (hQ : p.Ensures h fuel s Q)
    (hR : p.Ensures h fuel s R) : p.Ensures h fuel s fun a s' => Q a s' ∧ R a s' :=
  fun a s' hrun => ⟨hQ a s' hrun, hR a s' hrun⟩

theorem ensures_done {a : α} {s : σ} {Q : α → σ → Prop} (ha : Q a s) :
    (done a : Prog I α).Ensures h fuel s Q := by
  intro b s' hrun
  cases hrun
  exact ha

theorem ensures_pure {a : α} {s : σ} {Q : α → σ → Prop} (ha : Q a s) :
    (pure a : Prog I α).Ensures h fuel s Q :=
  ensures_done ha

theorem ensures_halt {why : Halt} {s : σ} {Q : α → σ → Prop} :
    (halt why : Prog I α).Ensures h fuel s Q := by
  intro a s' hrun
  cases hrun

/-- The rule for a sequence. What the first part ensures is that the rest, from there, ensures
    what the whole has to. -/
theorem ensures_bind {p : Prog I α} {f : α → Prog I β} {s : σ} {Q : β → σ → Prop}
    (hp : p.Ensures h fuel s fun a s' => (f a).Ensures h fuel s' Q) :
    (p >>= f).Ensures h fuel s Q := by
  intro b s' hrun
  rw [run_bind] at hrun
  rcases bind_eq_ok.1 hrun with ⟨⟨a, t⟩, hfirst, hrest⟩
  exact hp a t hfirst b s' hrest

/-- A request ensures what the rest does from every reply to it. -/
theorem ensures_call {r : I.Request} {next : I.Reply r → Prog I α} {s : σ} {Q : α → σ → Prop}
    (hr : ∀ a s', h r s = .ok (a, s') → (next a).Ensures h fuel s' Q) :
    (call r next).Ensures h fuel s Q := by
  intro b s' hrun
  rcases bind_eq_ok.1 hrun with ⟨⟨a, t⟩, hreply, hrest⟩
  exact hr a t hreply b s' hrest

/-- Replacing the requests of a sequence replaces those of its parts. -/
theorem interpret_bind {J : Interface} (g : (r : I.Request) → Prog J (I.Reply r))
    (p : Prog I α) (f : α → Prog I β) :
    (p >>= f).interpret g = p.interpret g >>= fun a => (f a).interpret g := by
  rw [bind_eq, bind_eq]
  -- Both sides replace the requests of `p` and then those of the rest, so the induction is on
  -- `p`.
  induction p with
  | done a => rfl
  | halt why => rfl
  | call r next ih =>
      simp only [Prog.bind, interpret, bind_assoc]
      exact congrArg _ (funext fun a => ih a f)
  | loop body start next _ ih =>
      simp only [Prog.bind, interpret]
      exact congrArg _ (funext fun c => ih c f)

theorem ensures_map {p : Prog I α} {f : α → β} {s : σ} {Q : β → σ → Prop}
    (hp : p.Ensures h fuel s fun a s' => Q (f a) s') : (f <$> p).Ensures h fuel s Q := by
  rw [map_eq_pure_bind]
  exact ensures_bind (ensures_mono hp fun a s' ha => ensures_pure ha)

/-- A loop whose rounds keep an invariant, and leave it as they should, does the
    same as a whole. -/
theorem ensures_repeatUntil {body : β → σ → Except Halt ((β ⊕ γ) × σ)} {K : β → σ → Prop}
    {Q : γ → σ → Prop}
    (hbody : ∀ b s, K b s → ∀ v s', body b s = .ok (v, s') → Sum.elim K Q v s') :
    ∀ (fuel : Nat) (b : β) (s : σ), K b s → ∀ c s',
      repeatUntil body fuel b s = .ok (c, s') → Q c s' := by
  intro fuel
  induction fuel with
  | zero =>
      intro b s _ c s' hrun
      cases hrun
  | succ fuel ih =>
      intro b s hb c s' hrun
      rcases bind_eq_ok.1 hrun with ⟨⟨v, t⟩, hround, hrest⟩
      have hv := hbody b s hb v t hround
      -- After a round that goes on the invariant holds again, and one that stops is the end.
      cases v with
      | inl b' => exact ih b' t hv c s' hrest
      | inr c' =>
          cases hrest
          exact hv

/-- The rule for a loop in a program, with an invariant for its rounds. -/
theorem ensures_iterate {body : β → Prog I (β ⊕ γ)} {start : β} {s : σ} {Q : γ → σ → Prop}
    (Inv : β → σ → Prop) (hstart : Inv start s)
    (hbody : ∀ b s, Inv b s → (body b).Ensures h fuel s (Sum.elim Inv Q)) :
    (iterate body start).Ensures h fuel s Q := by
  intro c s' hrun
  rcases bind_eq_ok.1 hrun with ⟨⟨c', t⟩, hloop, hrest⟩
  -- Nothing comes after the loop, so its value and state are those of the run.
  cases hrest
  exact ensures_repeatUntil (Q := Q) (fun b s hb v s' => hbody b s hb v s') fuel start s hstart
    c' t hloop

/-- A program that never reports does the same among those that may, and leaves
    the reports alone. -/
theorem ensures_unreported {hw : Handler Hardware σ} {p : Io α} {s : σ} {records : List Record}
    {Q : α → σ × List Record → Prop}
    (hp : p.Ensures hw fuel s fun a s' => Q a (s', records)) :
    p.unreported.Ensures hw.keepingRecords fuel (s, records) Q := by
  intro a s' hrun
  -- The run is one without reports, with the reports put beside it afterwards.
  rw [run_unreported] at hrun
  rcases bind_eq_ok.1 hrun with ⟨⟨b, t⟩, hplain, hrest⟩
  cases hrest
  exact hp b t hplain

/-- An access under an analyser adds its event to those so far. -/
theorem ensures_recorded {hw : Handler Hardware σ} {a : Access} {next : a.Reply → Io α}
    {s : σ} {events : List Event} {Q : α → σ × List Event → Prop}
    (hnext : ∀ v s', (next v).Ensures hw.recorded fuel (s', Event.of a v :: events) Q) :
    (call a next).Ensures hw.recorded fuel (s, events) Q := by
  refine ensures_call fun v t hreply => ?_
  rcases bind_eq_ok.1 hreply with ⟨w, _, hw'⟩
  cases hw'
  exact hnext _ _

/-- The same for a program that may report, whose accesses are noted and reports kept. -/
theorem ensures_observed {hw : Handler Hardware σ} {a : Access}
    {next : a.Reply → LoggedIo α} {s : σ} {events : List Event} {records : List Record}
    {Q : α → (σ × List Event) × List Record → Prop}
    (hnext : ∀ v s',
      (next v).Ensures hw.recorded.keepingRecords fuel ((s', Event.of a v :: events), records) Q) :
    (call (I := Reporting) (.access a) next).Ensures hw.recorded.keepingRecords fuel
      ((s, events), records) Q := by
  refine ensures_call fun v t hreply => ?_
  rcases bind_eq_ok.1 hreply with ⟨w, hrecorded, ht⟩
  rcases bind_eq_ok.1 hrecorded with ⟨u, _, hu⟩
  cases hu
  cases ht
  exact hnext _ _

/-- A run that is watched goes as one that is not. -/
theorem run_watched (hw : Handler Hardware σ) (fuel : Nat) (p : LoggedIo α)
    (s : (σ × List Event) × List Record) :
    forget (fun s : (σ × List Event) × List Record => (s.1.1, s.2))
        (p.run hw.recorded.keepingRecords fuel s) =
      p.run hw.keepingRecords fuel (s.1.1, s.2) := by
  refine run_forget ?_ fuel p s
  rintro (access | record) s
  · -- the access may halt the run
    change forget _ (((hw access s.1.1).bind _).bind _) = (hw access s.1.1).bind _
    cases hw access s.1.1 with
    | error why => rfl
    | ok v => rfl
  · rfl

/-- What is ensured of the hardware when nobody watches is ensured under an analyser. -/
theorem ensures_watched {hw : Handler Hardware σ} {p : LoggedIo α}
    {s : (σ × List Event) × List Record} {Q : α → σ → Prop}
    (hp : p.Ensures hw.keepingRecords fuel (s.1.1, s.2) fun a t => Q a t.1) :
    p.Ensures hw.recorded.keepingRecords fuel s fun a t => Q a t.1.1 := by
  intro a t hrun
  have hplain := run_watched hw fuel p s
  rw [hrun] at hplain
  exact hp a _ hplain.symm

/-- Every request that the program may make is allowed, and so is every cause for which it
    halts by itself. -/
inductive Only (P : I.Request → Prop) (H : Halt → Prop := fun _ => True) :
    {α : Type} → Prog I α → Prop
  | done {α : Type} (a : α) : Only P H (done a)
  | halt {α : Type} {why : Halt} (cause : H why) : Only P H (.halt why : Prog I α)
  | call {α : Type} {r : I.Request} {next : I.Reply r → Prog I α} (allowed : P r)
      (rest : ∀ a, Only P H (next a)) : Only P H (call r next)
  | loop {α β γ : Type} {body : β → Prog I (β ⊕ γ)} {start : β} {next : γ → Prog I α}
      (rounds : ∀ b, Only P H (body b)) (rest : ∀ c, Only P H (next c)) :
      Only P H (loop body start next)

variable {P : I.Request → Prop} {H : Halt → Prop}

theorem Only.pure {a : α} : Only P H (Pure.pure a : Prog I α) := Only.done a

theorem Only.one {r : I.Request} (allowed : P r) : Only P H (Prog.call r Prog.done) :=
  Only.call allowed Only.done

/-- More may be allowed. -/
theorem Only.mono {Q : I.Request → Prop} (hPQ : ∀ r, P r → Q r) {p : Prog I α}
    (hp : Only P H p) : Only Q H p := by
  induction hp with
  | done a => exact Only.done a
  | halt cause => exact Only.halt cause
  | call allowed _ ih => exact Only.call (hPQ _ allowed) ih
  | loop _ _ ihb ih => exact Only.loop ihb ih

/-- A sequence asks for what its parts ask for. -/
theorem Only.bind {p : Prog I α} {f : α → Prog I β} (hp : Only P H p)
    (hf : ∀ a, Only P H (f a)) : Only P H (p >>= f) := by
  rw [bind_eq]
  induction hp with
  | done a => exact hf a
  | halt cause => exact Only.halt cause
  | call allowed _ ih => exact Only.call allowed fun a => ih a hf
  | loop rounds _ _ ih => exact Only.loop rounds fun c => ih c hf

theorem Only.ite {c : Prop} [Decidable c] {p q : Prog I α} (hp : Only P H p)
    (hq : Only P H q) : Only P H (if c then p else q) := by
  split
  · exact hp
  · exact hq

/-- A loop asks for what a round of it asks for. -/
theorem Only.iterate {body : β → Prog I (β ⊕ γ)} {start : β} (hbody : ∀ b, Only P H (body b)) :
    Only P H (Prog.iterate body start) :=
  Only.loop hbody Only.done

/-- A loop over a list asks for what the rounds of its members ask for. -/
theorem Only.forM {xs : List β} {f : β → Prog I PUnit} (hf : ∀ x ∈ xs, Only P H (f x)) :
    Only P H (xs.forM f) := by
  induction xs with
  | nil => exact Only.pure
  | cons x rest ih =>
      refine Only.bind (hf x List.mem_cons_self) fun _ => ?_
      exact ih fun y hy => hf y (List.mem_cons_of_mem _ hy)

/-- Requests that are replaced by programs of other requests. -/
theorem Only.interpret {J : Interface} {Q : J.Request → Prop}
    {f : (r : I.Request) → Prog J (I.Reply r)} (hf : ∀ r, P r → Only Q H (f r)) {p : Prog I α}
    (hp : Only P H p) : Only Q H (p.interpret f) := by
  induction hp with
  | done a => exact Only.done a
  | halt cause => exact Only.halt cause
  | call allowed _ ih => exact Only.bind (hf _ allowed) ih
  | loop _ _ ihb ih => exact Only.loop ihb ih

/-- Any program keeps to a set of requests that has them all. -/
theorem only_true (p : Prog I α) : Only (fun _ => True) (fun _ => True) p := by
  induction p with
  | done a => exact Only.done a
  | halt why => exact Only.halt trivial
  | call r next ih => exact Only.call trivial ih
  | loop body start next ihb ih => exact Only.loop ihb ih

/-- What every allowed request keeps, a run of only such requests keeps. -/
theorem Only.ensures {K : σ → Prop}
    (hK : ∀ r, P r → ∀ s, K s → ∀ a s', h r s = .ok (a, s') → K s') {p : Prog I α}
    (hp : Only P H p) {s : σ} (hs : K s) : p.Ensures h fuel s fun _ s' => K s' := by
  induction hp generalizing s with
  | done a => exact ensures_done hs
  | halt why => exact ensures_halt
  | call allowed _ ih =>
      exact ensures_call fun a s' hreply => ih a (hK _ allowed s hs a s' hreply)
  | loop _ _ ihb ih =>
      -- A round is such a program too, so `K` is an invariant of the loop.
      rename_i body start next _ _
      intro b s' hrun
      rcases bind_eq_ok.1 hrun with ⟨⟨c, t⟩, hloop, hrest⟩
      have ht : K t := ensures_repeatUntil (K := fun _ s => K s) (Q := fun _ s => K s)
        (fun b s hs v s' hround => by
          have hkept := ihb b hs v s' hround
          cases v <;> exact hkept)
        fuel start s hs c t hloop
      exact ih c ht b s' hrest

end Prog

end KernelConsole
