import KernelConsole.Proofs.Kernel.Undisturbed

/-!
# Two Kernels in Step

Two kernels that differ in nothing but the device interrupts that are armed are
kept in step: whatever kernel code asks for, both answer the same, and they differ
in nothing else after that either.

The only request that tells them apart is an access to a port, since interrupts
come before it. But while nobody can take the console, a device interrupt is turned
away. It asks for the console to look at its device, and once more to write out the
backlog, and gets it neither time. So it makes no access, and leaves everything as
it was. Kernel code makes its accesses only while nobody can take the console,
because it holds it or because there is none yet.

A device interrupt that is turned away needs fuel all the same. So the second kernel
always has more than the first.

## Main definitions

* `Kernel.accesses`: The accesses of a run.
* `Kernel.Tallies`: Two runs have come to the same.
* `Kernel.Busy`, `Kernel.Within`: Nobody can take the console, and that has not
  changed.
* `Kernel.turnedAway`: The journal of a device interrupt that found the console busy.
* `Kernel.Agrees`: Operations do the same on both sides.

## Theorems

* `Kernel.perform_device`: A device interrupt that finds the console busy does
  nothing.
* `Kernel.nested_agrees`, `Kernel.interrupts_agree`: What runs inside other code.
* `Kernel.access_agrees`, `Kernel.service_agrees`, `Kernel.logging_agrees`: Both
  sides answer the same.
-/

namespace KernelConsole

namespace Kernel

open Prog

variable {σ : Type}

/-- The accesses of a run with their replies, in the order they were made. -/
def accesses : List (Moment σ) → List Event
  | [] => []
  | .access e :: before => accesses before ++ [e]
  | _ :: before => accesses before

/-- Two runs have come to the same, but for device interrupts that are armed. While
    there is no console, no interrupt to come brings one up. -/
structure Tallies (s t : Journaled σ) : Prop where
  /-- The machine is the same. -/
  machine : s.1.machine = t.1.machine
  /-- What is shared is the same. -/
  shared : s.1.shared = t.1.shared
  /-- The interrupts to come are the same, but for those of devices. -/
  armed : AllAlike s.1.armed t.1.armed
  /-- The same accesses were made. -/
  accesses : accesses s.2 = accesses t.2
  /-- No interrupt to come brings up a console that is not there. -/
  guarded : s.1.shared.console = none → s.1.NoInit

/-- Nobody can take the console: it is held, or there is none. -/
def Busy (l : Option (Lock Console)) : Prop := ∀ c, l ≠ some (.free c)

theorem busy_none : Busy none := fun _ => nofun

theorem busy_held : Busy (some .held) := fun _ => nofun

/-- Two moments that tally, at which the console is as given. -/
def Within (l : Option (Lock Console)) (s t : Journaled σ) : Prop :=
  Tallies s t ∧ s.1.shared.console = l

theorem Within.barred {l : Option (Lock Console)} {s t : Journaled σ} (h : Within l s t)
    (hbusy : Busy l) : Barred s.1 := by
  rcases h with ⟨htallies, hconsole⟩
  cases l with
  | none => exact .inr ⟨hconsole, htallies.guarded hconsole⟩
  | some lock =>
      cases lock with
      | free c => exact absurd rfl (hbusy c)
      | held => exact .inl hconsole

/-- It does not matter what else the journals say, if both worlds are as before. -/
theorem Tallies.congr {s s' t t' : Journaled σ} (h : Tallies s t) (hs : s'.1 = s.1)
    (ht : t'.1 = t.1) (hs' : Kernel.accesses s'.2 = Kernel.accesses s.2)
    (ht' : Kernel.accesses t'.2 = Kernel.accesses t.2) : Tallies s' t' where
  machine := by rw [hs, ht, h.machine]
  shared := by rw [hs, ht, h.shared]
  armed := by
    rw [hs, ht]
    exact h.armed
  accesses := by rw [hs', ht', h.accesses]
  guarded := by
    rw [hs]
    exact h.guarded

/-- More interrupts are armed on each side. -/
theorem Tallies.arm {s t : Journaled σ} (h : Tallies s t) {armed armed' : List (Armed σ)}
    (harmed : AllAlike armed armed')
    (hnoInit : s.1.shared.console = none → ∀ i ∈ armed, i.op.NoInit) :
    Tallies ({ s.1 with armed := s.1.armed ++ armed }, s.2)
      ({ t.1 with armed := t.1.armed ++ armed' }, t.2) := by
  refine ⟨h.machine, h.shared, h.armed.append harmed, h.accesses, fun hnone i hi => ?_⟩
  rcases List.mem_append.1 hi with hold | hnew
  · exact h.guarded hnone i hold
  · exact hnoInit hnone i hnew

/-- The journal after a device interrupt that found the console busy: it asked for the
    console twice, to look at its device and to write out the backlog. -/
def turnedAway (op : Op σ) (before : List (Moment σ)) : List (Moment σ) :=
  .leave op .nothing :: .service .tryLockConsole none :: .service .tryLockConsole none ::
    .enter op :: before

section Busy

variable {hw : Handler Hardware σ}
  {perform : Op σ → Journaled σ → Except Halt (Result × Journaled σ)} {fuel : Nat} {w : World σ}

theorem tryLockConsole_busy (hbusy : Busy w.shared.console) (journal : List (Moment σ)) :
    Journaled.respond hw perform (.service .tryLockConsole) (w, journal) =
      .ok (none, w, .service .tryLockConsole none :: journal) := by
  rcases w.shared.respond_tryLockConsole with ⟨_, hreply⟩ | ⟨c, hfree, _⟩
  · simp only [Journaled.respond, hreply, Except.bind]
  · exact absurd hfree (hbusy c)

/-- A device interrupt asks in vain for the device and in vain for the flush. -/
theorem interrupt_busy {look : Console → KernelIo σ Console} (hbusy : Busy w.shared.console)
    (journal : List (Moment σ)) :
    (interrupt look).run (Journaled.respond hw perform) fuel (w, journal) = .ok ((), w,
      .service .tryLockConsole none :: .service .tryLockConsole none :: journal) := by
  have hlook : (lookIfFree look).run (Journaled.respond hw perform) fuel (w, journal) =
      .ok ((), w, .service .tryLockConsole none :: journal) := by
    rw [lookIfFree, run_bind, service, run, tryLockConsole_busy hbusy]
    rfl
  rw [interrupt, run_bind, hlook]
  -- The flush asks again, and the console is as busy as before.
  simp only [Except.bind]
  rw [flushDeferred, run_bind, service, run, tryLockConsole_busy hbusy]
  rfl

/-- A device interrupt that finds the console busy does nothing. -/
theorem perform_device (hw : Handler Hardware σ) (fuel : Nat) {op : Op σ}
    (hdevice : op.isDevice = true) (hbusy : Busy w.shared.console) (journal : List (Moment σ)) :
    Journaled.perform hw (fuel + 1) op (w, journal) = .ok (.nothing, w, turnedAway op journal) := by
  cases op with
  | serialInterrupt =>
      rw [Journaled.perform, Op.program, run_bind, serialInterrupt, interrupt_busy hbusy]
      rfl
  | keyboardInterrupt =>
      rw [Journaled.perform, Op.program, run_bind, keyboardInterrupt, interrupt_busy hbusy]
      rfl
  | _ => cases hdevice

end Busy

/-- Operations do with fuel `m` from one moment what operations that are like them do
    with fuel `n` from another. -/
def Agrees (hw : Handler Hardware σ) (m n : Nat) : Prop :=
  ∀ op op' s t, Op.Alike op op' → Tallies s t → (s.1.shared.console = none → op.AtTop) →
    ∀ r s', Journaled.perform hw m op s = .ok (r, s') →
      ∃ t', Journaled.perform hw n op' t = .ok (r, t') ∧ Tallies s' t'

section Answers

variable {hw : Handler Hardware σ} {m n : Nat} {l : Option (Lock Console)} {s s' t : Journaled σ}

/-- An operation that runs inside other code leaves the console as it is. -/
theorem nested_agrees (hagrees : Agrees hw m n) (hbusy : Busy l) {op op' : Op σ}
    (hop : op.Alike op') (hnoInit : l = none → op.NoInit) (h : Within l s t) {r : Result}
    (hrun : Journaled.perform hw m op s = .ok (r, s')) :
    ∃ t', Journaled.perform hw n op' t = .ok (r, t') ∧ Within l s' t' := by
  have hbarred : Barred s.1 := h.barred hbusy
  rcases h with ⟨htallies, rfl⟩
  -- Code that runs inside other code may not bring up a console that is not there.
  have hallowed : Allowed s.1 op :=
    hbarred.imp_right fun ⟨hnone, _⟩ => hnoInit hnone
  rcases nests_perform hw m op s r s' hbarred hallowed hrun with ⟨_, hkeeps, _⟩
  rcases hagrees op op' s t hop htallies (fun hnone => .inr (hnoInit hnone)) r s' hrun with
    ⟨t', hrun', htallies'⟩
  exact ⟨t', hrun', htallies', hkeeps.console⟩

/-- Interrupts that are due, one after the other. Those of devices are turned away, on
    whichever side they are. -/
theorem runAll_agrees (hmn : m < n) (hagrees : Agrees hw m n) (hbusy : Busy l)
    {due due' : List (Armed σ)} (hdue : AllAlike due due')
    (hnoInit : l = none → ∀ i ∈ due, i.op.NoInit) (h : Within l s t)
    (hrun : Journaled.runAll (Journaled.perform hw m) (due.map Armed.op) s = .ok s') :
    ∃ t', Journaled.runAll (Journaled.perform hw n) (due'.map Armed.op) t = .ok t' ∧
      Within l s' t' := by
  induction hdue generalizing s t with
  | nil =>
      cases hrun
      exact ⟨t, rfl, h⟩
  | both hop _ ih =>
      rcases bind_eq_ok.1 hrun with ⟨⟨r, s₁⟩, hfirst, hrest⟩
      rcases nested_agrees hagrees hbusy hop (fun hnone => hnoInit hnone _ List.mem_cons_self) h
        hfirst with ⟨t₁, hfirst', h₁⟩
      obtain ⟨t', hrest', h'⟩ :=
        ih (fun hnone i hi => hnoInit hnone i (List.mem_cons_of_mem _ hi)) h₁ hrest
      exact ⟨t', bind_eq_ok.2 ⟨(r, t₁), hfirst', hrest'⟩, h'⟩
  | @fewer i _ _ hdevice _ ih =>
      rcases h with ⟨htallies, rfl⟩
      rcases bind_eq_ok.1 hrun with ⟨⟨r, s₁⟩, hfirst, hrest⟩
      cases m with
      | zero => exact nomatch hfirst
      | succ m =>
          have haway := perform_device hw m hdevice hbusy s.2
          -- It returned nothing and changed nothing, so the other side is where it was.
          have hsame : (.nothing, s.1, turnedAway i.op s.2) = (r, s₁) :=
            Except.ok.inj (haway.symm.trans hfirst)
          cases hsame
          have h₁ : Tallies (s.1, turnedAway i.op s.2) t := htallies.congr rfl rfl rfl rfl
          exact ih (fun hnone j hj => hnoInit hnone j (List.mem_cons_of_mem _ hj)) ⟨h₁, rfl⟩ hrest
  | @more i _ _ hdevice _ ih =>
      -- The second side has more fuel than the first, so there is some for the interrupt.
      obtain ⟨k, rfl⟩ : ∃ k, n = k + 1 := ⟨n - 1, by omega⟩
      rcases h with ⟨htallies, rfl⟩
      have hbusy' : Busy t.1.shared.console := htallies.shared ▸ hbusy
      have haway := perform_device hw k hdevice hbusy' t.2
      have h₁ : Tallies s (t.1, turnedAway i.op t.2) := htallies.congr rfl rfl rfl rfl
      obtain ⟨t', hrest', h'⟩ := ih hnoInit ⟨h₁, rfl⟩ hrun
      exact ⟨t', bind_eq_ok.2 ⟨(.nothing, t.1, turnedAway i.op t.2), haway, hrest'⟩, h'⟩

/-- The interrupts that fire at an access agree, counted down alike on both sides. -/
theorem interrupts_agree (hmn : m < n) (hagrees : Agrees hw m n) (hbusy : Busy l) (a : Access)
    (h : Within l s t)
    (hrun : Journaled.interrupts (Journaled.perform hw m) a s = .ok s') :
    ∃ t', Journaled.interrupts (Journaled.perform hw n) a t = .ok t' ∧ Within l s' t' := by
  unfold Journaled.interrupts at hrun ⊢
  by_cases hport : a.isPort
  · rw [if_pos hport] at hrun ⊢
    rcases h with ⟨htallies, rfl⟩
    -- The same are due on both sides, but for those of devices.
    have hdue := htallies.armed.filter fun k => decide (k ≤ 1)
    have hlater := (htallies.armed.filter fun k => decide (1 < k)).recount fun k => k - 1
    have hticked : Tallies (s.1.tick.2, s.2) (t.1.tick.2, t.2) := by
      refine ⟨htallies.machine, htallies.shared, hlater, htallies.accesses, fun hnone i hi => ?_⟩
      rcases List.mem_map.1 hi with ⟨j, hj, rfl⟩
      exact htallies.guarded hnone j (List.mem_of_mem_filter hj)
    refine runAll_agrees hmn hagrees hbusy hdue (fun hnone i hi => ?_) ⟨hticked, rfl⟩ hrun
    exact htallies.guarded hnone i (List.mem_of_mem_filter hi)
  · rw [if_neg hport] at hrun ⊢
    cases hrun
    exact ⟨t, rfl, h⟩

/-- An access with the interrupts before it. -/
theorem access_agrees (hmn : m < n) (hagrees : Agrees hw m n) (hbusy : Busy l) (a : Access)
    {v : a.Reply} (h : Within l s t)
    (hrun : Journaled.respond hw (Journaled.perform hw m) (.access a) s = .ok (v, s')) :
    ∃ t', Journaled.respond hw (Journaled.perform hw n) (.access a) t = .ok (v, t') ∧
      Within l s' t' := by
  rcases bind_eq_ok.1 hrun with ⟨s₁, hinterrupts, hrest⟩
  rcases bind_eq_ok.1 hrest with ⟨⟨v, machine⟩, hreply, hend⟩
  cases hend
  rcases interrupts_agree hmn hagrees hbusy a h hinterrupts with ⟨t₁, hinterrupts', h₁, hconsole⟩
  refine ⟨({ t₁.1 with machine }, .access (Event.of a v) :: t₁.2), ?_, ?_, hconsole⟩
  · refine bind_eq_ok.2 ⟨t₁, hinterrupts', bind_eq_ok.2 ⟨(v, machine), ?_, rfl⟩⟩
    -- The interrupts left the same machine on both sides, so it replies the same.
    rw [← h₁.machine]
    exact hreply
  · exact ⟨rfl, h₁.shared, h₁.armed, congrArg (· ++ [Event.of a v]) h₁.accesses, h₁.guarded⟩

/-- No request takes a console away that was installed. -/
theorem service_none {perform : Op σ → Journaled σ → Except Halt (Result × Journaled σ)}
    {r : Service} {v : r.Reply}
    (hrun : Journaled.respond hw perform (.service r) s = .ok (v, s'))
    (hnone : s'.1.shared.console = none) : s.1.shared.console = none := by
  cases r with
  | install c =>
      cases hrun
      cases hconsole : s.1.shared.console with
      | none => rfl
      | some lock =>
          simp only [hconsole] at hnone
          cases hnone
  | unlockConsole c =>
      cases hrun
      cases hnone
  | lockConsole =>
      rcases lockConsole_reply hrun with ⟨_, hsame, _⟩ | ⟨c, _, _, rfl⟩
      · exact hsame
      · cases hnone
  | tryLockConsole =>
      rcases tryLockConsole_reply hrun with ⟨_, _, rfl⟩ | ⟨c, _, _, rfl⟩
      · exact hnone
      · cases hnone
  | tryLockBacklog =>
      rcases tryLockBacklog_reply hrun with ⟨_, _, rfl⟩ | ⟨_, _, _, rfl⟩
      all_goals exact hnone
  | _ =>
      cases hrun
      exact hnone

theorem service_agrees (r : Service) {v : r.Reply} (h : Tallies s t)
    (hrun : Journaled.respond hw (Journaled.perform hw m) (.service r) s = .ok (v, s')) :
    ∃ t', Journaled.respond hw (Journaled.perform hw n) (.service r) t = .ok (v, t') ∧
      Tallies s' t' := by
  have hguarded : s'.1.shared.console = none → s.1.NoInit :=
    fun hnone => h.guarded (service_none hrun hnone)
  rcases bind_eq_ok.1 hrun with ⟨⟨v, shared⟩, hreply, hend⟩
  cases hend
  refine ⟨({ t.1 with shared }, .service r v :: t.2), bind_eq_ok.2 ⟨(v, shared), ?_, rfl⟩,
    h.machine, rfl, h.armed, h.accesses, hguarded⟩
  rw [← h.shared]
  exact hreply

/-- What a driver is answered. Its reports are log calls, with no more than a text. -/
theorem logging_agrees (hmn : m < n) (hagrees : Agrees hw m n) (hbusy : Busy l)
    (r : Reporting.Request) {v : Reporting.Reply r} (h : Within l s t)
    (hreply : (Journaled.respond hw (Journaled.perform hw m)).logging r s = .ok (v, s')) :
    ∃ t', (Journaled.respond hw (Journaled.perform hw n)).logging r t = .ok (v, t') ∧
      Within l s' t' := by
  cases r with
  | access a => exact access_agrees hmn hagrees hbusy a h hreply
  | report r =>
      rcases bind_eq_ok.1 hreply with ⟨⟨result, s₁⟩, hcall, hend⟩
      cases hend
      have hop : (Op.log r.level r.target (.text r.message .done) : Op σ).NoInit := trivial
      rcases nested_agrees hagrees hbusy (.same _) (fun _ => hop) h hcall with ⟨t', hcall', h'⟩
      exact ⟨t', bind_eq_ok.2 ⟨(result, t'), hcall', rfl⟩, h'⟩

end Answers

end Kernel

end KernelConsole
