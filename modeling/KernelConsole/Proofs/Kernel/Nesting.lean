import KernelConsole.Proofs.Kernel.Ledger
import KernelConsole.Proofs.Kernel.Shapes
import Mathlib.Data.List.Forall2

/-!
# Nested Operations

What an operation can do that runs inside another: before an access of a driver,
or while a record is written. The console is then either held by the operation
outside, or not installed yet, so the one inside gets no console, and makes no
access. All that it leaves behind are lines in the backlog, if nobody holds that
either.

An operation that brings up a console is the exception, but only while there is
none.

## Main definitions

* `Kernel.Op.NoInit`: No operation in it brings up the console.
* `Kernel.Barred`: The console cannot be had, and no interrupt will change that.
* `Kernel.Keeps`, `Kernel.Nested`: Nothing happened but that lines went into the
  backlog.
* `Kernel.Nests`: Operations that run inside others do no more than that.

## Theorems

* `Kernel.Keeps.trans`: One after the other.
* `Kernel.access_keeps`: An access with the interrupts before it.
* `Kernel.logPassed_kept`, `Kernel.logPassed_lost`: Logging without the console.
* `Kernel.withConsole_barred`, `interrupt_barred`, `log_barred`: The entry points.
* `Kernel.bare_nested`: Requests that ask for no lock.
* `Kernel.program_barred`: Operations.
* `Kernel.nests_perform`: Operations that run inside others only leave lines
  behind.
-/

namespace KernelConsole

namespace Kernel

open Journaled

variable {σ : Type}

mutual

/-- No operation in it brings up the console. -/
def Op.NoInit : Op σ → Prop
  | .init _ => False
  | .log _ _ message => message.NoInit
  | .arm _ op => op.NoInit
  | _ => True

def Message.NoInit : Message σ → Prop
  | .done => True
  | .text _ rest => rest.NoInit
  | .code op _ rest => op.NoInit ∧ rest.NoInit

end

/-- What a message without `init` runs is without it. -/
theorem Message.each_noInit : ∀ message : Message σ, message.NoInit → message.Each Op.NoInit
  | .done, _ => trivial
  | .text _ rest, h => rest.each_noInit h
  | .code _ _ rest, h => ⟨h.1, rest.each_noInit h.2⟩

/-- No interrupt to come brings up the console. -/
def World.NoInit (w : World σ) : Prop := ∀ i ∈ w.armed, i.op.NoInit

/-- The console cannot be had: it is held, or it is not installed and no interrupt
    will bring it up. -/
def Barred (w : World σ) : Prop :=
  w.shared.console = some .held ∨ w.shared.console = none ∧ w.NoInit

/-- The operation may run where the console cannot be had. -/
def Allowed (w : World σ) (op : Op σ) : Prop :=
  w.shared.console = some .held ∨ op.NoInit

/-- The backlog with more lines in it, if nobody holds it. -/
def withLines : Lock Backlog → List Record → Lock Backlog
  | .free b, records => .free ⟨b.pending.pushAll (linesOf records)⟩
  | .held, _ => .held

/-- From one moment to another nothing happened to what is shared, but that the
    lines of records went into the backlog. -/
structure Keeps (s s' : Journaled σ) (records : List Record) : Prop where
  /-- The console is where it was. -/
  console : s'.1.shared.console = s.1.shared.console
  /-- No interrupt to come brings up a console that is not there. -/
  armed : s.1.shared.console = none → s.1.NoInit → s'.1.NoInit
  /-- The lines are in the backlog. -/
  backlog : s'.1.shared.backlog = withLines s.1.shared.backlog records
  /-- Nothing goes into a backlog that is held. -/
  free : s.1.shared.backlog.isFree = false → records = []
  /-- Each record comes from a log call that got hold of the backlog. -/
  calls : ∃ calls, acquired s'.2 = acquired s.2 ++ calls.map (Prod.mk .backlog) ∧
    List.Forall₂ LogCall.Writes calls records

/-- No more than that happened, and nothing was sent. -/
def Nested (s s' : Journaled σ) : Prop :=
  ∃ records, Keeps s s' records ∧ sent s'.2 = sent s.2

theorem withLines_nil (l : Lock Backlog) : withLines l [] = l := by
  cases l <;> rfl

/-- Lines may go into it in two goes. -/
theorem withLines_append (l : Lock Backlog) (xs ys : List Record) :
    withLines l (xs ++ ys) = withLines (withLines l xs) ys := by
  cases l with
  | free b =>
      simp only [withLines, linesOf, List.flatMap_append, Ring.pushAll_append]
  | held => rfl

theorem isFree_withLines (l : Lock Backlog) (xs : List Record) :
    (withLines l xs).isFree = l.isFree := by
  cases l <;> rfl

/-- What leaves both locks alone keeps everything, without a line. -/
theorem Keeps.same {s s' : Journaled σ} (hconsole : s'.1.shared.console = s.1.shared.console)
    (hbacklog : s'.1.shared.backlog = s.1.shared.backlog)
    (harmed : s.1.shared.console = none → s.1.NoInit → s'.1.NoInit)
    (hacquired : acquired s'.2 = acquired s.2) : Keeps s s' [] where
  console := hconsole
  armed := harmed
  backlog := hbacklog.trans (withLines_nil _).symm
  free _ := rfl
  calls := ⟨[], hacquired.trans (List.append_nil _).symm, .nil⟩

theorem Keeps.refl (s : Journaled σ) : Keeps s s [] :=
  .same rfl rfl (fun _ h => h) rfl

/-- One stretch after the other keeps everything, with the lines of both. -/
theorem Keeps.trans {s t u : Journaled σ} {xs ys : List Record} (hst : Keeps s t xs)
    (htu : Keeps t u ys) : Keeps s u (xs ++ ys) where
  console := htu.console.trans hst.console
  armed hnone h := htu.armed (hst.console.trans hnone) (hst.armed hnone h)
  backlog := by rw [htu.backlog, hst.backlog, withLines_append]
  free hheld := by
    -- A backlog that is held at first is still held in between.
    have ht : t.1.shared.backlog.isFree = false := by
      rw [hst.backlog, isFree_withLines]
      exact hheld
    rw [hst.free hheld, htu.free ht]
    rfl
  calls := by
    rcases hst.calls with ⟨cs, hcs, hxs⟩
    rcases htu.calls with ⟨ds, hds, hys⟩
    refine ⟨cs ++ ds, ?_, List.rel_append hxs hys⟩
    rw [hds, hcs, List.map_append, List.append_assoc]

theorem Nested.refl (s : Journaled σ) : Nested s s :=
  ⟨[], .refl s, rfl⟩

theorem Nested.trans {s t u : Journaled σ} (hst : Nested s t) (htu : Nested t u) :
    Nested s u := by
  rcases hst with ⟨xs, hxs, hsent⟩
  rcases htu with ⟨ys, hys, hsent'⟩
  exact ⟨xs ++ ys, hxs.trans hys, hsent'.trans hsent⟩

/-- The console still cannot be had afterwards. -/
theorem Keeps.barred {s s' : Journaled σ} {records : List Record} (h : Keeps s s' records)
    (hs : Barred s.1) : Barred s'.1 := by
  rcases hs with hheld | ⟨hnone, harmed⟩
  · exact .inl (h.console.trans hheld)
  · exact .inr ⟨h.console.trans hnone, h.armed hnone harmed⟩

theorem Keeps.allowed {s s' : Journaled σ} {records : List Record} (h : Keeps s s' records)
    {op : Op σ} (hop : Allowed s.1 op) : Allowed s'.1 op :=
  hop.imp_left h.console.trans

theorem Nested.barred {s s' : Journaled σ} (h : Nested s s') (hs : Barred s.1) : Barred s'.1 := by
  rcases h with ⟨_, hkeeps, _⟩
  exact hkeeps.barred hs

theorem Nested.allowed {s s' : Journaled σ} (h : Nested s s') {op : Op σ}
    (hop : Allowed s.1 op) : Allowed s'.1 op := by
  rcases h with ⟨_, hkeeps, _⟩
  exact hkeeps.allowed hop

/-- Only a log call looks for a sink. -/
theorem asking_enter {op : Op σ} (h : ¬ op.IsLog) (before : List (Moment σ)) :
    asking (.enter op :: before) = none := by
  cases op <;> first | rfl | exact absurd trivial h

/-- Nothing happened that anybody outside can see, and the log call that was asking
    for a sink still is. -/
structure Still (s s' : Journaled σ) : Prop where
  world : s'.1 = s.1
  acquired : acquired s'.2 = acquired s.2
  sent : sent s'.2 = sent s.2
  asking : asking s'.2 = asking s.2

/-- If nothing can be seen, nothing more than lines happened. -/
theorem Still.nested {s s' : Journaled σ} (h : Still s s') : Nested s s' := by
  refine ⟨[], .same ?_ ?_ ?_ h.acquired, h.sent⟩
  all_goals rw [h.world]
  exact fun _ harmed => harmed

/-- Operations that run where the console cannot be had do no more than that. -/
def Nests (perform : Op σ → Journaled σ → Except Halt (Result × Journaled σ)) : Prop :=
  ∀ op s r s', Barred s.1 → Allowed s.1 op → perform op s = .ok (r, s') → Nested s s'

section Answers

variable {hw : Handler Hardware σ}
  {perform : Op σ → Journaled σ → Except Halt (Result × Journaled σ)}

/-- Operations called one after the other only leave lines behind if each of them does. -/
theorem runAll_nested (hnests : Nests perform) (ops : List (Op σ)) {s s' : Journaled σ}
    (hs : Barred s.1) (hops : ∀ op ∈ ops, Allowed s.1 op)
    (hrun : Journaled.runAll perform ops s = .ok s') : Nested s s' := by
  induction ops generalizing s with
  | nil =>
      cases hrun
      exact .refl _
  | cons op rest ih =>
      rcases bind_eq_ok.1 hrun with ⟨⟨r, t⟩, hfirst, hrest⟩
      -- What the first one leaves behind does not change what the others may do.
      have ht := hnests op s r t hs (hops op List.mem_cons_self) hfirst
      refine ht.trans (ih (ht.barred hs) (fun op' hop' => ?_) hrest)
      exact ht.allowed (hops op' (List.mem_cons_of_mem _ hop'))

theorem interrupts_nested (hnests : Nests perform) (a : Access) {s s' : Journaled σ}
    (hs : Barred s.1) (hrun : Journaled.interrupts perform a s = .ok s') : Nested s s' := by
  unfold Journaled.interrupts at hrun
  by_cases hport : a.isPort
  · rw [if_pos hport] at hrun
    have htick : Nested s (s.1.tick.2, s.2) := by
      refine ⟨[], .same rfl rfl (fun _ harmed i hi => ?_) rfl, rfl⟩
      rcases List.mem_map.1 hi with ⟨j, hj, rfl⟩
      exact harmed j (List.mem_of_mem_filter hj)
    refine htick.trans (runAll_nested hnests _ (htick.barred hs) (fun op hop => ?_) hrun)
    rcases hs with hheld | ⟨_, harmed⟩
    · exact .inl hheld
    · -- no console: the interrupts that are due were armed before, and bring none up
      rcases List.mem_map.1 hop with ⟨j, hj, rfl⟩
      exact .inr (harmed j (List.mem_of_mem_filter hj))
  · rw [if_neg hport] at hrun
    cases hrun
    exact .refl _

/-- An access with the interrupts before it sends what the access sends. -/
theorem access_keeps (hnests : Nests perform) (a : Access) {s s' : Journaled σ} {v : a.Reply}
    (hs : Barred s.1) (hrun : Journaled.respond hw perform (.access a) s = .ok (v, s')) :
    ∃ records, Keeps s s' records ∧ sent s'.2 = sent s.2 ++ a.sends := by
  rcases bind_eq_ok.1 hrun with ⟨t, hinterrupts, hrest⟩
  rcases bind_eq_ok.1 hrest with ⟨⟨reply, m⟩, _, hend⟩
  cases hend
  rcases interrupts_nested hnests a hs hinterrupts with ⟨records, hkeeps, hsent⟩
  -- The machine changes and one event is noted, after what the interrupts did.
  refine ⟨records, ?_, ?_⟩
  · have hsame : Keeps t ({ t.1 with machine := m }, .access (Event.of a reply) :: t.2) [] :=
      .same rfl rfl (fun _ h => h) rfl
    exact List.append_nil records ▸ hkeeps.trans hsame
  · rw [← hsent]
    exact sent_access a reply t.2

/-- A question about what is shared leaves nothing behind. -/
theorem idle_nested {r : Service} (hr : Idle r) {s s' : Journaled σ} {v : r.Reply}
    (hrun : Journaled.respond hw perform (.service r) s = .ok (v, s')) : Nested s s' := by
  cases r <;> first | exact absurd hr not_false | cases hrun
  all_goals exact ⟨[], .same rfl rfl (fun _ h => h) rfl, rfl⟩

/-- A console that cannot be had does not lie free. -/
theorem Barred.not_free {w : World σ} (h : Barred w) (c : Console) :
    w.shared.console ≠ some (.free c) := by
  rcases h with hheld | ⟨hnone, _⟩
  · rw [hheld]
    exact nofun
  · rw [hnone]
    exact nofun

/-- Who tries to take a console that cannot be had goes without it. -/
theorem tryLockConsole_nested {s s' : Journaled σ} {v : Option Console} (hs : Barred s.1)
    (hrun : Journaled.respond hw perform (.service .tryLockConsole) s = .ok (v, s')) :
    v = none ∧ Nested s s' := by
  rcases tryLockConsole_none hrun hs.not_free with ⟨hv, rfl⟩
  exact ⟨hv, [], .same rfl rfl (fun _ h => h) rfl, rfl⟩

/-- Who waits for the console where it cannot be had waits for ever, or there is
    none. -/
theorem lockConsole_barred {s s' : Journaled σ} {v : Option Console} (hs : Barred s.1)
    (hrun : Journaled.respond hw perform (.service .lockConsole) s = .ok (v, s')) :
    v = none ∧ s' = (s.1, .service .lockConsole none :: s.2) := by
  rcases lockConsole_reply hrun with ⟨hv, _, hs'⟩ | ⟨c, _, hfree, _⟩
  · exact ⟨hv, hs'⟩
  · exact absurd hfree (hs.not_free c)

/-- Who waits for it and comes back goes without it too. -/
theorem lockConsole_nested {s s' : Journaled σ} {v : Option Console} (hs : Barred s.1)
    (hrun : Journaled.respond hw perform (.service .lockConsole) s = .ok (v, s')) :
    v = none ∧ Nested s s' := by
  rcases lockConsole_barred hs hrun with ⟨hv, rfl⟩
  exact ⟨hv, [], .same rfl rfl (fun _ h => h) rfl, rfl⟩

end Answers

section Programs

variable {hw : Handler Hardware σ}
  {perform : Op σ → Journaled σ → Except Halt (Result × Journaled σ)} {fuel : Nat}

/-- A flush without a console does nothing. -/
theorem flushDeferred_barred {s : Journaled σ} (hs : Barred s.1) :
    flushDeferred.Ensures (Journaled.respond hw perform) fuel s fun _ s' => Nested s s' := by
  refine Prog.ensures_bind (Prog.ensures_call fun v s₁ hreply => Prog.ensures_done ?_)
  rcases tryLockConsole_nested hs hreply with ⟨rfl, hnested⟩
  exact Prog.ensures_pure hnested

theorem withConsole_barred {α : Type} {use : Console → KernelIo σ (α × Console)} {s : Journaled σ}
    (hs : Barred s.1) :
    (withConsole use).Ensures (Journaled.respond hw perform) fuel s fun _ s' => Nested s s' := by
  refine Prog.ensures_bind (Prog.ensures_bind (Prog.ensures_call fun v s₁ hreply =>
    Prog.ensures_done ?_))
  rcases lockConsole_nested hs hreply with ⟨rfl, hnested⟩
  -- Without a console there is no use of it, only the flush at the end.
  refine Prog.ensures_pure (Prog.ensures_bind ?_)
  refine Prog.ensures_mono (flushDeferred_barred (hnested.barred hs)) fun _ s₂ hflush => ?_
  exact Prog.ensures_pure (hnested.trans hflush)

theorem interrupt_barred {look : Console → KernelIo σ Console} {s : Journaled σ}
    (hs : Barred s.1) :
    (interrupt look).Ensures (Journaled.respond hw perform) fuel s fun _ s' => Nested s s' := by
  refine Prog.ensures_bind (Prog.ensures_bind (Prog.ensures_call fun v s₁ hreply =>
    Prog.ensures_done ?_))
  rcases tryLockConsole_nested hs hreply with ⟨rfl, hnested⟩
  refine Prog.ensures_pure ?_
  exact Prog.ensures_mono (flushDeferred_barred (hnested.barred hs)) fun _ _ hflush =>
    hnested.trans hflush

/-- Whether a record passes is asked of the logger and of the filter, and nothing comes of
    asking. -/
theorem logEnabled_still {level : Level} {s : Journaled σ} :
    (logEnabled level).Ensures (Journaled.respond hw perform) fuel s fun enabled s' =>
      Still s s' ∧ enabled = (s.1.shared.hasLogger && s.1.shared.filter.admits level) := by
  refine Prog.ensures_bind (Prog.ensures_call fun v s₁ hreply => Prog.ensures_done ?_)
  refine Prog.ensures_bind (Prog.ensures_call fun f s₂ hreply₂ => Prog.ensures_done ?_)
  cases hreply
  cases hreply₂
  exact Prog.ensures_pure ⟨⟨rfl, rfl, rfl, rfl⟩, rfl⟩

/-- A log call that gets neither the console nor the backlog is gone without a trace. -/
theorem logPassed_lost {call : LogCall σ} {s : Journaled σ}
    (hconsole : ∀ c, s.1.shared.console ≠ some (.free c))
    (hbacklog : s.1.shared.backlog = .held) :
    (logPassed call.level call.target call.message.pieces).Ensures (Journaled.respond hw perform)
      fuel s fun _ s' => s'.1 = s.1 ∧ acquired s'.2 = acquired s.2 ∧ sent s'.2 = sent s.2 := by
  refine Prog.ensures_bind (Prog.ensures_call fun v s₁ hreply => Prog.ensures_done ?_)
  rcases tryLockConsole_none hreply hconsole with ⟨rfl, rfl⟩
  refine Prog.ensures_bind (Prog.ensures_call fun v s₂ hreply₂ => Prog.ensures_done ?_)
  rcases tryLockBacklog_reply hreply₂ with ⟨rfl, _, rfl⟩ | ⟨b, _, hfree, _⟩
  · exact Prog.ensures_pure ⟨rfl, rfl, rfl⟩
  · cases hbacklog.symm.trans hfree

/-- The moment after a log call that did not get the console took the backlog. -/
def seized (s : Journaled σ) (b : Backlog) : Journaled σ :=
  ({ s.1 with shared := { s.1.shared with backlog := .held } },
    .service .tryLockBacklog (some b) :: .service .tryLockConsole none :: s.2)

theorem acquired_seized {s : Journaled σ} {call : LogCall σ} (b : Backlog)
    (hasking : asking s.2 = some call) :
    acquired (seized s b).2 = acquired s.2 ++ [(.backlog, call)] := by
  simp only [seized, acquired, asking, hasking]
  rfl

/-- A log call that only gets the backlog puts it back with the line of its record in
    it. Meanwhile the operations in the message run, and what they keep is kept. -/
theorem logPassed_kept {K : Journaled σ → Prop} {P : Op σ → Prop} {call : LogCall σ}
    {b : Backlog} {s : Journaled σ} (hconsole : ∀ c, s.1.shared.console ≠ some (.free c))
    (hbacklog : s.1.shared.backlog = .free b)
    (hK : ∀ op, P op → ∀ t v t', K t → perform op t = .ok (v, t') → K t')
    (hcall : call.message.Each P) (hs : K (seized s b)) :
    (logPassed call.level call.target call.message.pieces).Ensures (Journaled.respond hw perform)
      fuel s fun _ s' => ∃ r t, call.Writes r ∧ K t ∧
        s'.1 = { t.1 with shared := { t.1.shared with backlog := withLines (.free b) [r] } } ∧
        acquired s'.2 = acquired t.2 ∧ sent s'.2 = sent t.2 := by
  refine Prog.ensures_bind (Prog.ensures_call fun v s₁ hreply => Prog.ensures_done ?_)
  rcases tryLockConsole_none hreply hconsole with ⟨rfl, rfl⟩
  refine Prog.ensures_bind (Prog.ensures_call fun v s₂ hreply₂ => Prog.ensures_done ?_)
  rcases tryLockBacklog_free hreply₂ hbacklog with ⟨rfl, rfl⟩
  -- The backlog in hand holds what was pending and the text so far.
  refine Prog.ensures_bind (Prog.ensures_mono (writeLine_ensures (P := P)
    (R := fun text b' t => b'.pending = b.pending.pushAll (utf8 text) ∧ K t) ?_ ?_ call hcall
    ⟨rfl, hs⟩) fun b' t ⟨r, hwrites, hpending, ht⟩ => ?_)
  · intro text b' t piece ⟨hpending, ht⟩
    refine Prog.ensures_pure ⟨?_, ht⟩
    rw [utf8_append, Ring.pushAll_append, ← hpending]
    rfl
  · intro op hop text b' t v t' ⟨hpending, ht⟩ hrun
    exact ⟨hpending, hK op hop t v t' ht hrun⟩
  · refine Prog.ensures_call fun _ s₃ hreply₃ => Prog.ensures_done ?_
    cases hreply₃
    refine ⟨r, t, hwrites, ht, ?_, rfl, rfl⟩
    simp only [withLines, linesOf, List.flatMap_cons, List.flatMap_nil, List.append_nil,
      ← hpending]

/-- A log call that cannot have the console leaves the line of its record in the
    backlog, or nothing if that is held. -/
theorem log_barred (hnests : Nests perform) {call : LogCall σ} {s : Journaled σ}
    (hs : Barred s.1) (hcall : call.message.Each (Allowed s.1)) (hasking : asking s.2 = some call) :
    (log call.level call.target call.message.pieces).Ensures (Journaled.respond hw perform) fuel s
      fun _ s' => Nested s s' := by
  refine Prog.ensures_bind (Prog.ensures_mono logEnabled_still fun enabled s₁ ⟨hstill, _⟩ => ?_)
  by_cases henabled : enabled = true
  · rw [if_pos henabled]
    have hs₁ : Barred s₁.1 := hstill.world ▸ hs
    have hasking₁ : asking s₁.2 = some call := hstill.asking.trans hasking
    refine Prog.ensures_mono ?_ fun _ _ h => hstill.nested.trans h
    cases hlock : s₁.1.shared.backlog with
    | held =>
        refine Prog.ensures_mono (logPassed_lost hs₁.not_free hlock)
          fun _ s' ⟨hworld, hacquired, hsent⟩ => ⟨[], .same ?_ ?_ ?_ hacquired, hsent⟩
        all_goals rw [hworld]
        exact fun _ h => h
    | free b =>
        have hallowed : call.message.Each (Allowed s₁.1) := hstill.world ▸ hcall
        -- So what the message runs finds the console as it was, and leaves only lines.
        have hnested : ∀ op, Allowed s₁.1 op → ∀ t v t', Nested (seized s₁ b) t →
            perform op t = .ok (v, t') → Nested (seized s₁ b) t' := by
          intro op hop t v t' ht hrun
          exact ht.trans (hnests op t v t' (ht.barred hs₁) (ht.allowed hop) hrun)
        refine Prog.ensures_mono (logPassed_kept hs₁.not_free hlock hnested hallowed (.refl _))
          fun _ s' ⟨r, t, hwrites, ⟨records, hkeeps, hsent⟩, hworld, hacquired, hsame⟩ => ?_
        -- While the backlog is held, nothing else can get into it.
        have hnone : records = [] := hkeeps.free rfl
        rcases hkeeps.calls with ⟨calls, hcalls, hmatch⟩
        rw [hnone, List.forall₂_nil_right_iff] at hmatch
        rw [hmatch, List.map_nil, List.append_nil, acquired_seized b hasking₁] at hcalls
        refine ⟨[r], ⟨?_, ?_, ?_, ?_, [call], hacquired.trans hcalls, .cons hwrites .nil⟩,
          hsame.trans hsent⟩
        · rw [hworld]
          exact hkeeps.console
        · rw [hworld]
          exact hkeeps.armed
        · rw [hworld, hlock]
        · rw [hlock]
          exact nofun
  · rw [if_neg henabled]
    exact Prog.ensures_pure hstill.nested

/-- What an operation asks for that asks for no lock leaves nothing behind, and it arms no
    interrupt that could bring up a console. -/
theorem bare_nested {s₀ : Journaled σ} :
    ∀ r : (Calls σ).Request, Bare (fun op => s₀.1.shared.console = none → op.NoInit) r →
      ∀ s, Nested s₀ s → ∀ v s',
        Journaled.respond hw perform r s = .ok (v, s') → Nested s₀ s' := by
  intro r hr s hs v s' hreply
  cases r with
  | access a => exact absurd hr not_false
  | call op => exact absurd hr not_false
  | service r => exact hs.trans (idle_nested hr.1 hreply)
  | arm countdown op =>
      cases hreply
      have harmed : Nested s (s.1.arm countdown op, s.2) := by
        refine ⟨[], .same rfl rfl (fun hnone harmed i hi => ?_) rfl, rfl⟩
        rcases List.mem_append.1 hi with hold | hnew
        · exact harmed i hold
        · -- the new one: while there is no console, it may not bring one up
          rcases hs with ⟨_, hkeeps, _⟩
          rw [List.mem_singleton.1 hnew]
          exact hr (hkeeps.console.symm.trans hnone)
      exact hs.trans harmed
  | outside act =>
      cases hreply
      have hmachine : Nested s ({ s.1 with machine := (act s.1.machine).2 }, s.2) :=
        ⟨[], .same rfl rfl (fun _ h => h) rfl, rfl⟩
      exact hs.trans hmachine

/-- What an operation does where the console cannot be had, which is to leave lines behind at
    most. -/
theorem program_barred (hnests : Nests perform) (op : Op σ) {s : Journaled σ} (hs : Barred s.1)
    (hop : Allowed s.1 op) :
    op.program.Ensures (Journaled.respond hw perform) fuel (s.1, .enter op :: s.2) fun _ s' =>
      Nested s s' := by
  have hstart : Nested s (s.1, .enter op :: s.2) :=
    ⟨[], .same rfl rfl (fun _ h => h) rfl, rfl⟩
  -- Wherever the operation flushes, it finds no console.
  have hflush : ∀ t, Nested s t → flushDeferred.Ensures (Journaled.respond hw perform) fuel t
      fun _ t' => Nested s t' := fun t ht =>
    Prog.ensures_mono (flushDeferred_barred (ht.barred hs)) fun _ _ h => ht.trans h
  cases op.shape with
  | init settings =>
      -- This may only run where a console is held, and that one stays.
      have hheld : s.1.shared.console = some .held := hop.resolve_right not_false
      refine Prog.ensures_map (Prog.ensures_bind (Prog.ensures_call fun v s₁ hreply =>
        Prog.ensures_done ?_))
      have hnested := hstart.trans (idle_nested (r := .isInstalled) trivial hreply)
      have hinstalled : v = true := by
        cases hreply
        exact congrArg Option.isSome hheld
      rw [if_pos hinstalled]
      exact Prog.ensures_pure hnested
  | uses husage =>
      rw [Op.program_of_usage husage]
      refine Prog.ensures_map (ensures_useAll (K := Nested s) (fun use _ t ht => ?_) hstart)
      exact Prog.ensures_mono (withConsole_barred (ht.barred hs)) fun _ _ h => ht.trans h
  | looks hlook =>
      rw [Op.program_of_look hlook]
      exact Prog.ensures_bind (Prog.ensures_mono (interrupt_barred (hstart.barred hs))
        fun _ _ h => Prog.ensures_pure (hstart.trans h))
  | log level target message =>
      have hcall : message.Each (Allowed s.1) := by
        rcases hop with hheld | hnoInit
        · exact message.each_imp (fun _ _ => .inl hheld) message.each_true
        · exact message.each_imp (fun _ h => .inr h) (message.each_noInit hnoInit)
      let call : LogCall σ := ⟨level, target, message⟩
      have hasking : asking (.enter (.log level target message) :: s.2) = some call := rfl
      exact Prog.ensures_bind (Prog.ensures_mono
        (log_barred hnests (hstart.barred hs) hcall hasking)
        fun _ _ h => Prog.ensures_pure (hstart.trans h))
  | flushLog =>
      have hask : ∀ v s₁, Journaled.respond hw perform (.service .hasLogger)
          (s.1, .enter .flushLog :: s.2) = .ok (v, s₁) → Nested s s₁ := fun v s₁ hreply =>
        hstart.trans (idle_nested (r := .hasLogger) trivial hreply)
      exact ensures_flushLog (fun s₁ hreply => hflush s₁ (hask _ s₁ hreply)) (hask _)
  | flushDeferred =>
      exact Prog.ensures_bind (Prog.ensures_mono (hflush _ hstart) fun _ _ h =>
        Prog.ensures_pure h)
  | lockless hlockless =>
      have honly : op.program.Only (Bare fun inside => s.1.shared.console = none →
          inside.NoInit) := by
        refine lockless_only hlockless fun countdown inside harm hnone => ?_
        subst harm
        exact hop.resolve_left fun hheld => by cases hnone.symm.trans hheld
      exact honly.ensures bare_nested hstart

end Programs

/-- Operations that run where the console cannot be had only leave lines behind. -/
theorem nests_perform (hw : Handler Hardware σ) (fuel : Nat) :
    Nests (Journaled.perform hw fuel) := by
  -- The fuel bounds how deep operations nest, so the ones inside have less.
  induction fuel with
  | zero => exact fun op s r s' _ _ hrun => nomatch hrun
  | succ fuel ih =>
      intro op s r s' hs hop hrun
      rcases bind_eq_ok.1 hrun with ⟨⟨v, t⟩, hprogram, hend⟩
      have ht := program_barred ih op hs hop v t hprogram
      cases hend
      exact ht.trans ⟨[], .same rfl rfl (fun _ h => h) rfl, rfl⟩

end Kernel

end KernelConsole
