import KernelConsole.Proofs.Ensures

/-!
# Replaying a Run

A driver does what it does because of the replies it gets. Whoever answers it, and
whatever happens between its accesses, it does the same on hardware that gives the same
replies. So a run of a driver inside something larger can be replayed on its own, from
the accesses and replies that were written down, and what is known of runs on bare
hardware holds of it.

A run can also be cut short as soon as something has happened that cannot be undone.
A run in which it never happens is not changed by that.

## Main definitions

* `Handler.until`: The same answers, but no further than to a given kind of state.
* `Event.reply?`, `replaying`: Hardware that gives the replies of given events.
* `Told`: A run goes through given events and ends with a value.
* `Transcribes`: Whoever answers a driver writes down its accesses.

## Theorems

* `Prog.run_until`: A run that is not cut short.
* `Told.bind`: The events of a sequence.
* `Transcribes.replays`: A run can be replayed from what was written down.
-/

namespace KernelConsole

/-- The same answers, but the run halts as soon as it comes to a state of the kind. -/
def Handler.until {I : Interface} {S : Type} (h : Handler I S) (bad : S → Prop)
    [DecidablePred bad] : Handler I S :=
  fun r s => (h r s).bind fun v => if bad v.2 then .error .outOfFuel else .ok v

section Until

variable {I : Interface} {S α β γ : Type} {h : Handler I S} {bad : S → Prop} {fuel : Nat}

/-- An answer that is not cut short is the one that there was, and leads to no such state. -/
theorem Handler.until_eq_ok [DecidablePred bad] {r : I.Request} {s : S} {v : I.Reply r × S} :
    h.until bad r s = .ok v ↔ h r s = .ok v ∧ ¬bad v.2 := by
  constructor
  · intro hreply
    rcases bind_eq_ok.1 hreply with ⟨w, hw, hrest⟩
    by_cases hbad : bad w.2
    · rw [if_pos hbad] at hrest
      cases hrest
    · rw [if_neg hbad] at hrest
      cases hrest
      exact ⟨hw, hbad⟩
  · rintro ⟨hreply, hgood⟩
    exact bind_eq_ok.2 ⟨v, hreply, if_neg hgood⟩

/-- A loop that ends in a good state has been in good states all along, as bad ones last, and
    so is not cut short. -/
theorem repeatUntil_until {body body' : β → S → Except Halt ((β ⊕ γ) × S)}
    (hlasts : ∀ b s v, body b s = .ok v → bad s → bad v.2)
    (hbody : ∀ b s v, body b s = .ok v → ¬bad v.2 → body' b s = .ok v) (n : Nat) (b : β) (s : S)
    {v : γ × S} (hrun : repeatUntil body n b s = .ok v) (hgood : ¬bad v.2) :
    ¬bad s ∧ repeatUntil body' n b s = .ok v := by
  induction n generalizing b s with
  | zero => cases hrun
  | succ n ih =>
      rcases bind_eq_ok.1 hrun with ⟨⟨next, t⟩, hround, hrest⟩
      cases next with
      | inl b' =>
          -- By induction the state after this round was good, so the round was not cut short
          -- either.
          obtain ⟨ht, hrest'⟩ := ih b' t hrest
          exact ⟨fun hbad => ht (hlasts b s _ hround hbad),
            bind_eq_ok.2 ⟨(.inl b', t), hbody b s _ hround ht, hrest'⟩⟩
      | inr c =>
          cases hrest
          exact ⟨fun hbad => hgood (hlasts b s _ hround hbad),
            bind_eq_ok.2 ⟨(.inr c, t), hbody b s _ hround hgood, rfl⟩⟩

/-- What cannot be undone by an answer cannot be undone by a run. -/
theorem Prog.run_lasts (hlasts : ∀ r s v, h r s = .ok v → bad s → bad v.2) (p : Prog I α) {s : S}
    (hbad : bad s) : p.Ensures h fuel s fun _ s' => bad s' :=
  (only_true p).ensures (fun r _ s hs v s' hreply => hlasts r s (v, s') hreply hs) hbad

/-- A run that does not come to such a state is not cut short, if there is no way out
    of one. -/
theorem Prog.run_until [DecidablePred bad] (hlasts : ∀ r s v, h r s = .ok v → bad s → bad v.2)
    (p : Prog I α) {s : S} {v : α × S} (hrun : p.run h fuel s = .ok v) (hgood : ¬bad v.2) :
    p.run (h.until bad) fuel s = .ok v := by
  induction p generalizing s with
  | done a => exact hrun
  | halt why => cases hrun
  | call r next ih =>
      rcases bind_eq_ok.1 hrun with ⟨⟨a, t⟩, hreply, hrest⟩
      -- A bad state here would have lasted to the end of the run.
      have ht : ¬bad t := fun hbad => hgood (run_lasts hlasts (next a) hbad v.1 v.2 hrest)
      exact bind_eq_ok.2 ⟨(a, t), Handler.until_eq_ok.2 ⟨hreply, ht⟩, ih a hrest hgood⟩
  | loop body start next ihb ih =>
      rcases bind_eq_ok.1 hrun with ⟨⟨c, t⟩, hloop, hrest⟩
      have ht : ¬bad t := fun hbad => hgood (run_lasts hlasts (next c) hbad v.1 v.2 hrest)
      obtain ⟨_, hloop'⟩ := repeatUntil_until
        (fun b s v hround hbad => run_lasts hlasts (body b) hbad v.1 v.2 hround)
        (fun b s v hround hv => ihb b hround hv) fuel start s hloop ht
      exact bind_eq_ok.2 ⟨(c, t), hloop', ih c hrest hgood⟩

end Until

/-- The reply to an access that an event tells of, if it is an event of that access. -/
def Event.reply? : (a : Access) → Event → Option a.Reply
  | .readReg r, .regRead r' value => if r' = r then some value else none
  | .writeReg r value, .regWrite r' value' => if r' = r ∧ value' = value then some () else none
  | .readCell address, .cellRead address' cell => if address' = address then some cell else none
  | .writeCell address cell, .cellWrite address' cell' =>
      if address' = address ∧ cell' = cell then some () else none
  | _, _ => none

theorem Event.reply?_of (a : Access) (v : a.Reply) : Event.reply? a (Event.of a v) = some v := by
  cases a with
  | readReg r => exact if_pos rfl
  | writeReg r value => exact if_pos ⟨rfl, rfl⟩
  | readCell address => exact if_pos rfl
  | writeCell address cell => exact if_pos ⟨rfl, rfl⟩

/-- Hardware that lets happen what a list of events tells, and nothing else. -/
def replaying : Handler Hardware (List Event)
  | _, [] => .error .outOfFuel
  | a, e :: later => match Event.reply? a e with
    | some v => .ok (v, later)
    | none => .error .outOfFuel

theorem replaying_of (a : Access) (v : a.Reply) (later : List Event) :
    replaying a (Event.of a v :: later) = .ok (v, later) := by
  rw [replaying, Event.reply?_of]

/-- A replay: the events to come, those that were, newest first, and the reports. -/
abbrev Replay : Type := (List Event × List Event) × List Record

/-- On hardware that replays, a run goes through the events and ends with the value,
    whatever came before and comes after. -/
def Told {α : Type} (run : Replay → Except Halt (α × Replay)) (events : List Event) (a : α) :
    Prop :=
  ∀ later before records, ∃ records',
    run ((events ++ later, before), records) = .ok (a, (later, events.reverse ++ before), records')

/-- Whoever answers a driver writes down its accesses with their replies, and keeps the
    state as `K` says. -/
structure Transcribes {S : Type} (h : Handler Reporting S) (K : S → Prop)
    (events : S → List Event) : Prop where
  /-- An access is written down. -/
  access : ∀ a s v s', K s → h (.access a) s = .ok (v, s') →
    K s' ∧ events s' = events s ++ [Event.of a v]
  /-- A report is not. -/
  report : ∀ r s v s', K s → h (.report r) s = .ok (v, s') → K s' ∧ events s' = events s

section Replaying

variable {S α β γ : Type} {fuel : Nat}

/-- Two runs one after the other are told by the events of the first followed by those of the
    second. -/
theorem Told.bind {first : Replay → Except Halt (α × Replay)}
    {rest run : Replay → Except Halt (β × Replay)} {es fs : List Event} {a : α} {b : β}
    (hfirst : Told first es a) (hrest : Told rest fs b)
    (hrun : ∀ t t', first t = .ok (a, t') → run t = rest t') : Told run (es ++ fs) b := by
  intro later before records
  rcases hfirst (fs ++ later) before records with ⟨records₁, hfirst'⟩
  rcases hrest later (es.reverse ++ before) records₁ with ⟨records₂, hrest'⟩
  refine ⟨records₂, ?_⟩
  rw [List.append_assoc, List.reverse_append, List.append_assoc, hrun _ _ hfirst']
  exact hrest'

theorem Told.value (a : α) : Told (fun t => .ok (a, t)) [] a :=
  fun _ _ records => ⟨records, rfl⟩

/-- An access to hardware that replays it. -/
theorem told_access (a : Access) (v : a.Reply) :
    Told (replaying.recorded.keepingRecords (.access a)) [Event.of a v] v := by
  intro later before records
  refine ⟨records, ?_⟩
  change carry records (replaying.recorded a (Event.of a v :: later, before)) = _
  rw [Handler.recorded, replaying_of]
  rfl

theorem told_report (r : Record) :
    Told (replaying.recorded.keepingRecords (.report r)) [] () :=
  fun _ _ records => ⟨r :: records, rfl⟩

variable {h : Handler Reporting S} {K : S → Prop} {events : S → List Event}

/-- A loop goes round in a replay as often as it did. -/
theorem repeatUntil_replays {body : β → S → Except Halt ((β ⊕ γ) × S)}
    {body' : β → Replay → Except Halt ((β ⊕ γ) × Replay)}
    (hbody : ∀ b s, K s → ∀ v s', body b s = .ok (v, s') →
      K s' ∧ ∃ es, events s' = events s ++ es ∧ Told (body' b) es v) (n : Nat) (b : β) {s : S}
    (hs : K s) {c : γ} {s' : S} (hrun : repeatUntil body n b s = .ok (c, s')) :
    K s' ∧ ∃ es, events s' = events s ++ es ∧ Told (repeatUntil body' n b) es c := by
  induction n generalizing b s with
  | zero => cases hrun
  | succ n ih =>
      rcases bind_eq_ok.1 hrun with ⟨⟨next, t⟩, hround, hrest⟩
      obtain ⟨ht, es, hes, htold⟩ := hbody b s hs next t hround
      cases next with
      | inl b' =>
          obtain ⟨hs', fs, hfs, htold'⟩ := ih b' ht hrest
          refine ⟨hs', es ++ fs, by rw [hfs, hes, List.append_assoc], ?_⟩
          refine htold.bind htold' fun t t' hbody' => ?_
          rw [repeatUntil, hbody']
          rfl
      | inr d =>
          cases hrest
          refine ⟨ht, es, hes, ?_⟩
          rw [← List.append_nil es]
          refine htold.bind (.value c) fun t t' hbody' => ?_
          rw [repeatUntil, hbody']
          rfl

/-- What a driver did can be replayed from what was written down. -/
theorem Transcribes.replays (htranscribes : Transcribes h K events) (p : LoggedIo α) {s : S}
    (hs : K s) :
    p.Ensures h fuel s fun a s' => K s' ∧ ∃ es, events s' = events s ++ es ∧
      Told (p.run replaying.recorded.keepingRecords fuel) es a := by
  induction p generalizing s with
  | done a => exact Prog.ensures_done ⟨hs, [], (List.append_nil _).symm, .value a⟩
  | halt why => exact Prog.ensures_halt
  | call r next ih =>
      refine Prog.ensures_call fun v t hreply => ?_
      -- One request: an access is told by its event, a report by none.
      have hone : K t ∧ ∃ es, events t = events s ++ es ∧
          Told (replaying.recorded.keepingRecords r) es v := by
        cases r with
        | access a =>
            obtain ⟨ht, hevents⟩ := htranscribes.access a s v t hs hreply
            exact ⟨ht, _, hevents, told_access a v⟩
        | report r =>
            obtain ⟨ht, hevents⟩ := htranscribes.report r s v t hs hreply
            exact ⟨ht, [], hevents.trans (List.append_nil _).symm, told_report r⟩
      obtain ⟨ht, es, hes, htold⟩ := hone
      refine Prog.ensures_mono (ih v ht) fun a s' ⟨hs', fs, hfs, htold'⟩ => ?_
      refine ⟨hs', es ++ fs, by rw [hfs, hes, List.append_assoc], ?_⟩
      refine htold.bind htold' fun t t' hcall => ?_
      rw [Prog.run, hcall]
      rfl
  | loop body start next ihb ih =>
      intro a s' hrun
      rcases bind_eq_ok.1 hrun with ⟨⟨c, t⟩, hloop, hrest⟩
      have hrounds : ∀ b s, K s → ∀ v s', (body b).run h fuel s = .ok (v, s') →
          K s' ∧ ∃ es, events s' = events s ++ es ∧
            Told ((body b).run replaying.recorded.keepingRecords fuel) es v :=
        fun b s hs => ihb b hs
      -- First the rounds and then what comes after them, each told by its own events.
      obtain ⟨ht, es, hes, htold⟩ := repeatUntil_replays hrounds fuel start hs hloop
      obtain ⟨hs', fs, hfs, htold'⟩ := ih c ht a s' hrest
      refine ⟨hs', es ++ fs, by rw [hfs, hes, List.append_assoc], ?_⟩
      refine htold.bind htold' fun t t' hrounds' => ?_
      rw [Prog.run, hrounds']
      rfl

end Replaying

end KernelConsole
