import KernelConsole.Proofs.Returns
import KernelConsole.Proofs.TwoRuns

/-!
# Exact Traffic

Statements about every event of a run, made with `Prog.Traces`: the run ends on a bus,
and its value, its events in order and the state the bus is left in are as they should
be. The events so far may be any, so the events of a sequence are those of its parts,
one after the other.

An analyser on a bus is a bus again, with the events beside its state. What is proved
for every bus, that a program returns for instance, is so proved with the analyser on
it.

A program that may report is watched in the same way with `Prog.Observes`. What it reports
is no event.

Two buses are alike but for their port reads if related states answer every other
access with the same reply. A register may read differently on the two, and reading it
may do whatever it likes, as long as the states stay related.

## Main definitions

* `Bus.recording`: A bus with an analyser on it.
* `Prog.Traces`: The run ends, and what holds of its events then.
* `Bus.observe`, `Prog.Observes`: The same for a program that may report.
* `Event.isPortRead`: The event is a read of a port.
* `Bus.AlikeButReads`: Two buses that only differ in what registers read as.
* `Prog.SameButReads`: Related states after the same events, but for the port reads.

## Theorems

* `Bus.run_recording`: What was noted before a run does not matter to it.
* `Bus.trace_bind`: The events of a sequence are those of its parts.
* `Prog.trace_eq_ok`, `Prog.Traces.trace`: What `Bus.trace` gives.
* `Prog.traces_bind`, `Prog.traces_access`: The rules.
* `Prog.Finishes.traces`: The events of a program that finishes in every run.
* `Prog.Observes.observe`: What `Bus.observe` gives.
* `Prog.observes_bind`, `Prog.observes_unreported`, `Prog.observes_report`: The rules for a
  program that may report.
* `Prog.Only.mirrors_alike`: A program that reads no register, on two buses that are
  alike.
* `Bus.AlikeButReads.recording`, `Prog.Mirrors.trace`: The events on both.
-/

namespace KernelConsole

variable {σ τ : Type}

/-- The same bus with the events beside its state, newest first. -/
def Bus.recording (bus : Bus σ) : Bus (σ × List Event) :=
  fun a s => ((bus a s.1).1, (bus a s.1).2, Event.of a (bus a s.1).1 :: s.2)

theorem Bus.recorded_handler (bus : Bus σ) :
    bus.handler.recorded = bus.recording.handler := rfl

/-- What is noted of a run does not hang on what was noted before it. -/
theorem Bus.run_recording {α : Type} (bus : Bus σ) (fuel : Nat) (p : Io α) (m : σ)
    (before : List Event) :
    p.run bus.recording.handler fuel (m, before) =
      (bus.trace fuel p m).bind fun v => .ok (v.1, v.2.2, v.2.1.reverse ++ before) := by
  -- The earlier events put below the noted ones, a run from none is a run from them.
  have hshift : forget (fun s : σ × List Event => (s.1, s.2 ++ before))
      (p.run bus.recording.handler fuel (m, [])) =
        p.run bus.recording.handler fuel (m, before) :=
    Prog.run_forget (fun _ _ => rfl) fuel p (m, [])
  rw [← hshift, Bus.trace, bus.recorded_handler]
  cases p.run bus.recording.handler fuel (m, []) with
  | error why => rfl
  | ok v => exact congrArg (fun e => Except.ok (v.1, v.2.1, e ++ before)) v.2.2.reverse_reverse.symm

/-- The events of a sequence are those of its first part and then those of the rest. -/
theorem Bus.trace_bind {α β : Type} (bus : Bus σ) (fuel : Nat) (p : Io α) (f : α → Io β) (m : σ) :
    bus.trace fuel (p >>= f) m = (bus.trace fuel p m).bind fun v =>
      (bus.trace fuel (f v.1) v.2.2).bind fun w => .ok (w.1, v.2.1 ++ w.2.1, w.2.2) := by
  change ((p >>= f).run bus.recording.handler fuel (m, [])).bind _ = _
  rw [Prog.run_bind, bus.run_recording]
  cases bus.trace fuel p m with
  | error why => rfl
  | ok v =>
      simp only [Except.bind, bus.run_recording]
      cases bus.trace fuel (f v.1) v.2.2 with
      | error why => rfl
      | ok w => simp only [List.append_nil, List.reverse_append, List.reverse_reverse]

/-- A value that is made of the result of a run is no access. -/
theorem Bus.trace_bind_pure {α β : Type} (bus : Bus σ) (fuel : Nat) (p : Io α) (f : α → β)
    (m : σ) :
    bus.trace fuel (p >>= fun a => pure (f a)) m =
      (bus.trace fuel p m).map fun (a, events, m) => (f a, events, m) := by
  rw [bus.trace_bind]
  cases bus.trace fuel p m with
  | error why => rfl
  | ok v => exact congrArg (fun e => Except.ok (f v.1, e, v.2.2)) (List.append_nil v.2.1)

/-- The event is a read of a port. -/
def Event.isPortRead (e : Event) : Bool := e.portRead?.isSome

/-- The access reads a register. -/
def Access.isRegRead : Access → Bool
  | readReg _ => true
  | _ => false

/-- Related states answer alike, except that a register may read differently, and stay
    related, also when only one of them reads one. -/
structure Bus.AlikeButReads (bus : Bus σ) (bus' : Bus τ) (R : σ → τ → Prop) : Prop where
  /-- A read of a register on the one side. -/
  left : ∀ r m m', R m m' → R (bus (.readReg r) m).2 m'
  /-- A read of a register on the other. -/
  right : ∀ r m m', R m m' → R m (bus' (.readReg r) m').2
  /-- Anything else, on both. -/
  both : ∀ a, a.isRegRead = false → ∀ m m', R m m' →
    (bus a m).1 = (bus' a m').1 ∧ R (bus a m).2 (bus' a m').2

/-- Runs a program that may report on a bus, giving its value, the events in the order they
    happened, and the state the bus is left in. -/
def Bus.observe {α : Type} (bus : Bus σ) (fuel : Nat) (p : LoggedIo α) (m : σ) :
    Except Halt (α × List Event × σ) :=
  (p.run bus.handler.recorded.keepingRecords fuel ((m, []), [])).bind fun v =>
    .ok (v.1, v.2.1.2.reverse, v.2.1.1)

namespace Prog

variable {α β : Type} {bus : Bus σ} {fuel : Nat}

/-- The run ends with a value, and the value, the events in order and the state the bus
    is left in are as `Q` says, whatever events there were before. -/
def Traces (bus : Bus σ) (fuel : Nat) (p : Io α) (m : σ) (Q : α → List Event → σ → Prop) : Prop :=
  ∀ before, p.Returns bus.recording.handler fuel (m, before) fun a s =>
    ∃ events, s.2 = events.reverse ++ before ∧ Q a events s.1

/-- The events of a run are what an analyser has noted at its end, turned round, as it notes
    the newest first. -/
theorem trace_eq_ok {p : Io α} {m m' : σ} {a : α} {events : List Event} :
    bus.trace fuel p m = .ok (a, events, m') ↔
      p.run bus.recording.handler fuel (m, []) = .ok (a, m', events.reverse) := by
  unfold Bus.trace
  rw [bus.recorded_handler]
  refine ⟨fun h => ?_, fun h => ?_⟩
  · rcases bind_eq_ok.1 h with ⟨⟨b, m₁, recorded⟩, hrun, hends⟩
    cases hends
    rw [List.reverse_reverse]
    exact hrun
  · rw [h]
    exact congrArg (fun e => Except.ok (a, e, m')) events.reverse_reverse

/-- A run that starts with no events ends with its own. -/
theorem Traces.trace {p : Io α} {m : σ} {Q : α → List Event → σ → Prop}
    (hp : p.Traces bus fuel m Q) :
    ∃ a events m', bus.trace fuel p m = .ok (a, events, m') ∧ Q a events m' := by
  rcases hp [] with ⟨a, ⟨m', recorded⟩, hrun, events, hrecorded, hQ⟩
  rw [List.append_nil] at hrecorded
  exact ⟨a, events, m', trace_eq_ok.2 (hrecorded ▸ hrun), hQ⟩

theorem traces_mono {p : Io α} {m : σ} {Q R : α → List Event → σ → Prop}
    (hp : p.Traces bus fuel m Q) (hQR : ∀ a events m', Q a events m' → R a events m') :
    p.Traces bus fuel m R := by
  intro before
  refine returns_mono (hp before) fun a s ⟨events, hevents, hQ⟩ => ?_
  exact ⟨events, hevents, hQR a events s.1 hQ⟩

theorem traces_pure {a : α} {m : σ} {Q : α → List Event → σ → Prop} (ha : Q a [] m) :
    (pure a : Io α).Traces bus fuel m Q :=
  fun _ => returns_pure ⟨[], rfl, ha⟩

theorem traces_access (a : Access) {m : σ} {Q : a.Reply → List Event → σ → Prop}
    (hQ : Q (bus a m).1 [Event.of a (bus a m).1] (bus a m).2) :
    (call a done : Io a.Reply).Traces bus fuel m Q :=
  fun before => ⟨_, bus.recording a (m, before) |>.2, rfl, [Event.of a (bus a m).1], rfl, hQ⟩

/-- The events of a sequence are those of the first part followed by those of the rest. -/
theorem traces_bind {p : Io α} {f : α → Io β} {m : σ} {Q : β → List Event → σ → Prop}
    (hp : p.Traces bus fuel m fun a events m' =>
      (f a).Traces bus fuel m' fun b later m'' => Q b (events ++ later) m'') :
    (p >>= f).Traces bus fuel m Q := by
  intro before
  refine returns_bind (returns_mono (hp before) fun a s ⟨events, hevents, hrest⟩ => ?_)
  refine returns_mono (hrest s.2) fun b s' ⟨later, hlater, hQ⟩ => ?_
  refine ⟨events ++ later, ?_, hQ⟩
  rw [hlater, hevents, List.reverse_append, List.append_assoc]

/-- A program that finishes in every run has only events of what it may access. -/
theorem Finishes.traces {P : Access → Prop} {p : Io α} {V : α → Prop} (hp : p.Finishes P V)
    (m : σ) : p.Traces bus fuel m fun a events _ =>
      V a ∧ ∀ e ∈ events, ∃ access v, P access ∧ e = Event.of access v := by
  induction hp generalizing m with
  | done value => exact traces_pure ⟨value, nofun⟩
  | @call access next allowed _ ih =>
      -- A request in front of the rest is a sequence of the two, which the rule for traces is
      -- about.
      change ((Prog.call access Prog.done : Io access.Reply) >>= next).Traces bus fuel m _
      refine traces_bind (traces_access access ?_)
      refine traces_mono (ih _ _) fun a later _ ⟨ha, hlater⟩ => ⟨ha, fun e he => ?_⟩
      rcases List.mem_cons.1 he with rfl | hmem
      · exact ⟨access, _, allowed, rfl⟩
      · exact hlater e hmem

/-- What holds of a run with its events holds of the run. -/
theorem Traces.returns {p : Io α} {m : σ} {Q : α → List Event → σ → Prop}
    (hp : p.Traces bus fuel m Q) :
    p.Returns bus.handler fuel m fun a m' => ∃ events, Q a events m' := by
  rcases hp [] with ⟨a, s', hrun, events, _, hQ⟩
  have hplain : forget Prod.fst (p.run bus.recording.handler fuel (m, [])) =
      p.run bus.handler fuel m := run_forget (fun _ _ => rfl) fuel p (m, [])
  rw [hrun] at hplain
  exact ⟨a, s'.1, hplain.symm, events, hQ⟩

/-- The run of a program that may report ends with a value, and the value, the events in
    order and the state the bus is left in are as `Q` says, whatever events and reports there
    were before. -/
def Observes (bus : Bus σ) (fuel : Nat) (p : LoggedIo α) (m : σ)
    (Q : α → List Event → σ → Prop) : Prop :=
  ∀ before records, p.Returns bus.recording.handler.keepingRecords fuel ((m, before), records)
    fun a s => ∃ events, s.1.2 = events.reverse ++ before ∧ Q a events s.1.1

/-- A run that may report, from no events and no reports, ends with its own events. -/
theorem Observes.observe {p : LoggedIo α} {m : σ} {Q : α → List Event → σ → Prop}
    (hp : p.Observes bus fuel m Q) :
    ∃ a events m', bus.observe fuel p m = .ok (a, events, m') ∧ Q a events m' := by
  rcases hp [] [] with ⟨a, ⟨⟨m', recorded⟩, records⟩, hrun, events, hrecorded, hQ⟩
  rw [List.append_nil] at hrecorded
  refine ⟨a, events, m', ?_, hQ⟩
  unfold Bus.observe
  rw [bus.recorded_handler, hrun, ← events.reverse_reverse, ← hrecorded]
  rfl

theorem observes_mono {p : LoggedIo α} {m : σ} {Q R : α → List Event → σ → Prop}
    (hp : p.Observes bus fuel m Q) (hQR : ∀ a events m', Q a events m' → R a events m') :
    p.Observes bus fuel m R := by
  intro before records
  refine returns_mono (hp before records) fun a s ⟨events, hevents, hQ⟩ => ?_
  exact ⟨events, hevents, hQR a events s.1.1 hQ⟩

theorem observes_pure {a : α} {m : σ} {Q : α → List Event → σ → Prop} (ha : Q a [] m) :
    (pure a : LoggedIo α).Observes bus fuel m Q :=
  fun _ _ => returns_pure ⟨[], rfl, ha⟩

/-- The rule for a sequence of programs that may report. Reports are no events, so only the
    events are joined. -/
theorem observes_bind {p : LoggedIo α} {f : α → LoggedIo β} {m : σ}
    {Q : β → List Event → σ → Prop}
    (hp : p.Observes bus fuel m fun a events m' =>
      (f a).Observes bus fuel m' fun b later m'' => Q b (events ++ later) m'') :
    (p >>= f).Observes bus fuel m Q := by
  intro before records
  refine returns_bind (returns_mono (hp before records) fun a s ⟨events, hevents, hrest⟩ => ?_)
  refine returns_mono (hrest s.1.2 s.2) fun b s' ⟨later, hlater, hQ⟩ => ?_
  refine ⟨events ++ later, ?_, hQ⟩
  rw [hlater, hevents, List.reverse_append, List.append_assoc]

/-- A program that never reports is watched as before. -/
theorem observes_unreported {p : Io α} {m : σ} {Q : α → List Event → σ → Prop}
    (hp : p.Traces bus fuel m Q) : p.unreported.Observes bus fuel m Q :=
  fun before _ => returns_unreported (hp before)

theorem observes_report (level : Level) (target message : String) {m : σ}
    {Q : Unit → List Event → σ → Prop} (hQ : Q () [] m) :
    (report level target message).Observes bus fuel m Q :=
  fun _ _ => ⟨_, _, rfl, [], rfl, hQ⟩

variable {bus' : Bus τ} {R : σ → τ → Prop}

/-- A program that reads no register does the same on two buses that are alike but for
    their reads. -/
theorem Only.mirrors_alike (halike : bus.AlikeButReads bus' R) {p : Io α}
    (hp : p.Only (Access.isRegRead · = false)) {m : σ} {m' : τ} (hR : R m m') :
    p.Mirrors bus.handler fuel m bus'.handler fuel p m' fun a s b t => a = b ∧ R s t := by
  refine Only.mirrors (Nat.le_refl _) ?_ hp hR
  intro a hother s t hst v s' hreply
  rcases halike.both a hother s t hst with ⟨hvalue, hR'⟩
  have hanswer : bus a s = (v, s') := Except.ok.inj hreply
  rw [hanswer] at hvalue hR'
  exact ⟨_, congrArg (fun v => Except.ok (v, (bus' a t).2)) hvalue.symm, hR'⟩

/-- The states are related, and so far all events but the port reads are the same. -/
def SameButReads (R : σ → τ → Prop) (s : σ × List Event) (t : τ × List Event) : Prop :=
  R s.1 t.1 ∧ s.2.filter (!·.isPortRead) = t.2.filter (!·.isPortRead)

end Prog

open Prog

variable {bus : Bus σ} {bus' : Bus τ} {R : σ → τ → Prop} {fuel : Nat}

/-- With analysers on them, two such buses also have the same events, but for those
    reads. -/
theorem Bus.AlikeButReads.recording (halike : bus.AlikeButReads bus' R) :
    bus.recording.AlikeButReads bus'.recording (SameButReads R) where
  left r s t hst :=
    ⟨halike.left r _ _ hst.1, (List.filter_cons_of_neg Bool.false_ne_true).trans hst.2⟩
  right r s t hst :=
    ⟨halike.right r _ _ hst.1, hst.2.trans (List.filter_cons_of_neg Bool.false_ne_true).symm⟩
  both a hother s t hst := by
    rcases halike.both a hother s.1 t.1 hst.1 with ⟨hvalue, hR⟩
    refine ⟨hvalue, hR, ?_⟩
    -- The event of any other access is the same on both sides, whether it is kept by the
    -- filter or not.
    simp only [Bus.recording, hvalue, List.filter_cons, hst.2]

namespace Prog

/-- Two runs that start alike and end alike have had the same events, but for the port
    reads. -/
theorem Mirrors.trace {α : Type} {p : Io α} {m : σ} {m' : τ}
    (hp : p.Mirrors bus.recording.handler fuel (m, []) bus'.recording.handler fuel p (m', [])
      fun a s b t => a = b ∧ SameButReads R s t)
    {a : α} {events : List Event} {after : σ}
    (htrace : bus.trace fuel p m = .ok (a, events, after)) :
    ∃ events' after', bus'.trace fuel p m' = .ok (a, events', after') ∧
      events.filter (!·.isPortRead) = events'.filter (!·.isPortRead) ∧ R after after' := by
  obtain ⟨b, ⟨after', recorded⟩, hrun, rfl, hR, hsame⟩ := hp a _ (trace_eq_ok.1 htrace)
  refine ⟨recorded.reverse, after', trace_eq_ok.2 (recorded.reverse_reverse.symm ▸ hrun), ?_, hR⟩
  -- The filtered lists agree newest first, and so they do oldest first.
  have hreverse := congrArg List.reverse hsame
  rw [List.filter_reverse, List.reverse_reverse] at hreverse
  rw [hreverse, List.filter_reverse]

end Prog

end KernelConsole
