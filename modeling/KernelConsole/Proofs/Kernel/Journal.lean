import KernelConsole.Kernel.World

/-!
# The Journal of a Kernel Run

A kernel run with a journal of what happened in it: the accesses with their
replies, the requests on the shared state with theirs, and where each operation
begins and ends. Statements about the order of things in a run are about its
journal.

The journal is only written. A run with a journal is the run without it, and
every run has one. Nor does it matter what was noted before a run: the run notes
the same after it.

A request on the shared state changes nothing else, and who asks for a lock is told
whether it was free. Everything about the locks in a run is derived from these
answers.

## Main definitions

* `Kernel.Moment`: Something that happened.
* `Kernel.Journaled`: A world with what happened in it, newest first.
* `Kernel.Journaled.respond`, `perform`, `performAll`: Running with a journal.
* `Kernel.Journaled.preceded`: More noted before everything else.
* `Kernel.taken`: The moment after somebody took the console.

## Theorems

* `Kernel.Journaled.perform_forget`: An operation with a journal and without.
* `Kernel.Journaled.performAll_forget`: Several operations.
* `Kernel.Journaled.perform_preceded`, `perform_eq`: An operation does the same
  whatever was noted before.
* `Kernel.service_reply`: What a request on the shared state changes.
* `Kernel.lockConsole_reply`, `tryLockConsole_reply`, `tryLockBacklog_reply`: The
  answers to who asks for a lock.
-/

namespace KernelConsole

namespace Kernel

/-- Something that happened in a run. -/
inductive Moment (σ : Type)
  /-- An access was made. -/
  | access (e : Event)
  /-- A request on the shared state was answered. -/
  | service (s : Service) (reply : s.Reply)
  /-- An operation began. -/
  | enter (op : Op σ)
  /-- An operation ended. -/
  | leave (op : Op σ) (result : Result)

/-- A world and what happened in it so far, newest first. -/
abbrev Journaled (σ : Type) : Type := World σ × List (Moment σ)

namespace Journaled

variable {σ : Type}

/-- Runs operations one after the other and forgets what they return. -/
def runAll (perform : Op σ → Journaled σ → Except Halt (Result × Journaled σ)) :
    List (Op σ) → Journaled σ → Except Halt (Journaled σ)
  | [], s => .ok s
  | op :: rest, s => (perform op s).bind fun v => runAll perform rest v.2

/-- Counts an access if it goes to a port, and runs the interrupts that are due. -/
def interrupts (perform : Op σ → Journaled σ → Except Halt (Result × Journaled σ)) (a : Access)
    (s : Journaled σ) : Except Halt (Journaled σ) :=
  if a.isPort then runAll perform s.1.tick.1 (s.1.tick.2, s.2) else .ok s

/-- Answers kernel code and notes what happened. -/
def respond (hw : Handler Hardware σ)
    (perform : Op σ → Journaled σ → Except Halt (Result × Journaled σ)) :
    Handler (Calls σ) (Journaled σ)
  | .access a, s => (interrupts perform a s).bind fun s => (hw a s.1.machine).bind fun v =>
      .ok (v.1, { s.1 with machine := v.2 }, .access (Event.of a v.1) :: s.2)
  | .service r, s => (s.1.shared.respond r).bind fun v =>
      .ok (v.1, { s.1 with shared := v.2 }, .service r v.1 :: s.2)
  | .call op, s => perform op s
  | .arm countdown op, s => .ok ((), s.1.arm countdown op, s.2)
  | .outside act, s =>
      .ok ((act s.1.machine).1, { s.1 with machine := (act s.1.machine).2 }, s.2)

/-- Performs an operation and notes where it begins and ends. -/
def perform (hw : Handler Hardware σ) :
    Nat → Op σ → Journaled σ → Except Halt (Result × Journaled σ)
  | 0, _, _ => .error .outOfFuel
  | fuel + 1, op, s =>
      (op.program.run (respond hw (perform hw fuel)) (fuel + 1) (s.1, .enter op :: s.2)).bind
        fun v => .ok (v.1, v.2.1, .leave op v.1 :: v.2.2)

/-- Performs operations one after the other and collects what they return. -/
def performAll (hw : Handler Hardware σ) (fuel : Nat) :
    List (Op σ) → Journaled σ → Except Halt (List Result × Journaled σ)
  | [], s => .ok ([], s)
  | op :: rest, s => (perform hw fuel op s).bind fun v =>
      (performAll hw fuel rest v.2).bind fun vs => .ok (v.1 :: vs.1, vs.2)

section Forget

variable {journaled : Op σ → Journaled σ → Except Halt (Result × Journaled σ)}
  {plain : Op σ → World σ → Except Halt (Result × World σ)}

/-- Without their journal, operations called one after the other are those calls in the world.
    -/
theorem runAll_forget (h : ∀ op s, forget Prod.fst (journaled op s) = plain op s.1)
    (ops : List (Op σ)) (s : Journaled σ) :
    ((runAll journaled ops s).bind fun s => .ok s.1) = Kernel.runAll plain ops s.1 := by
  induction ops generalizing s with
  | nil => rfl
  | cons op rest ih =>
      simp only [runAll, Kernel.runAll, ← h]
      cases journaled op s with
      | error why => rfl
      | ok v => exact ih v.2

theorem interrupts_forget (h : ∀ op s, forget Prod.fst (journaled op s) = plain op s.1)
    (a : Access) (s : Journaled σ) :
    ((interrupts journaled a s).bind fun s => .ok s.1) = Kernel.interrupts plain a s.1 := by
  unfold interrupts Kernel.interrupts
  by_cases hport : a.isPort
  · rw [if_pos hport, if_pos hport]
    exact runAll_forget h _ _
  · rw [if_neg hport, if_neg hport]
    rfl

theorem respond_forget (hw : Handler Hardware σ)
    (h : ∀ op s, forget Prod.fst (journaled op s) = plain op s.1) (r : (Calls σ).Request)
    (s : Journaled σ) :
    forget Prod.fst (respond hw journaled r s) = Kernel.respond hw plain r s.1 := by
  cases r with
  | access a =>
      simp only [respond, Kernel.respond, ← interrupts_forget h]
      cases interrupts journaled a s with
      | error why => rfl
      | ok t =>
          simp only [Except.bind]
          cases hw a t.1.machine <;> rfl
  | service r =>
      simp only [respond, Kernel.respond]
      cases s.1.shared.respond r <;> rfl
  | call op => exact h op s
  | arm countdown op => rfl
  | outside act => rfl

end Forget

/-- An operation does with a journal what it does without. -/
theorem perform_forget (hw : Handler Hardware σ) (fuel : Nat) (op : Op σ) (s : Journaled σ) :
    forget Prod.fst (perform hw fuel op s) = s.1.perform hw fuel op := by
  induction fuel generalizing op s with
  | zero => rfl
  | succ fuel ih =>
      -- The operations inside have less fuel, so the answers are the same by induction.
      have hrun := Prog.run_forget (respond_forget hw ih) (fuel + 1) op.program
        (s.1, .enter op :: s.2)
      rw [perform]
      change _ = op.program.run (Kernel.respond hw fun op w => w.perform hw fuel op) _ s.1
      rw [← hrun]
      cases op.program.run (respond hw (perform hw fuel)) (fuel + 1) (s.1, .enter op :: s.2) <;> rfl

theorem performAll_forget (hw : Handler Hardware σ) (fuel : Nat) (ops : List (Op σ))
    (s : Journaled σ) :
    forget Prod.fst (performAll hw fuel ops s) = World.performAll hw fuel ops s.1 := by
  induction ops generalizing s with
  | nil => rfl
  | cons op rest ih =>
      simp only [performAll, World.performAll, ← perform_forget hw fuel op s]
      cases perform hw fuel op s with
      | error why => rfl
      | ok v =>
          change forget Prod.fst ((performAll hw fuel rest v.2).bind _) =
            (World.performAll hw fuel rest v.2.1).bind _
          rw [← ih]
          cases performAll hw fuel rest v.2 <;> rfl

/-- The same moment, with more noted before everything else. -/
def preceded (earlier : List (Moment σ)) (s : Journaled σ) : Journaled σ := (s.1, s.2 ++ earlier)

section Preceded

variable {perform : Op σ → Journaled σ → Except Halt (Result × Journaled σ)}
  {earlier : List (Moment σ)}

/-- What was noted before does not matter to operations that it does not matter to one by one.
    -/
theorem runAll_preceded
    (h : ∀ op s, forget (preceded earlier) (perform op s) = perform op (preceded earlier s))
    (ops : List (Op σ)) (s : Journaled σ) :
    ((runAll perform ops s).bind fun s => .ok (preceded earlier s)) =
      runAll perform ops (preceded earlier s) := by
  induction ops generalizing s with
  | nil => rfl
  | cons op rest ih =>
      simp only [runAll, ← h]
      cases perform op s with
      | error why => rfl
      | ok v => exact ih v.2

theorem interrupts_preceded
    (h : ∀ op s, forget (preceded earlier) (perform op s) = perform op (preceded earlier s))
    (a : Access) (s : Journaled σ) :
    ((interrupts perform a s).bind fun s => .ok (preceded earlier s)) =
      interrupts perform a (preceded earlier s) := by
  unfold interrupts
  by_cases hport : a.isPort
  · rw [if_pos hport, if_pos hport]
    exact runAll_preceded h _ _
  · rw [if_neg hport, if_neg hport]
    rfl

theorem respond_preceded (hw : Handler Hardware σ)
    (h : ∀ op s, forget (preceded earlier) (perform op s) = perform op (preceded earlier s))
    (r : (Calls σ).Request) (s : Journaled σ) :
    forget (preceded earlier) (respond hw perform r s) =
      respond hw perform r (preceded earlier s) := by
  cases r with
  | access a =>
      simp only [respond, ← interrupts_preceded h]
      cases interrupts perform a s with
      | error why => rfl
      | ok t =>
          change forget _ ((hw a t.1.machine).bind _) = (hw a t.1.machine).bind _
          cases hw a t.1.machine <;> rfl
  | service r =>
      change forget _ ((s.1.shared.respond r).bind _) = (s.1.shared.respond r).bind _
      cases s.1.shared.respond r <;> rfl
  | call op => exact h op s
  | arm countdown op => rfl
  | outside act => rfl

end Preceded

/-- What was noted before an operation does not matter to it. -/
theorem perform_preceded (hw : Handler Hardware σ) (fuel : Nat) (earlier : List (Moment σ))
    (op : Op σ) (s : Journaled σ) :
    forget (preceded earlier) (perform hw fuel op s) = perform hw fuel op (preceded earlier s) := by
  induction fuel generalizing op s with
  | zero => rfl
  | succ fuel ih =>
      -- As for `perform_forget`, by induction on the fuel.
      have hrun := Prog.run_forget (respond_preceded hw ih) (fuel + 1) op.program
        (s.1, .enter op :: s.2)
      change forget _ ((op.program.run _ _ (s.1, .enter op :: s.2)).bind _) =
        (op.program.run _ _ (preceded earlier (s.1, .enter op :: s.2))).bind _
      rw [← hrun]
      cases op.program.run (respond hw (perform hw fuel)) (fuel + 1) (s.1, .enter op :: s.2) <;> rfl

/-- An operation adds to what was noted before what it would note by itself. -/
theorem perform_eq (hw : Handler Hardware σ) (fuel : Nat) (op : Op σ) (s : Journaled σ) :
    perform hw fuel op s =
      (perform hw fuel op (s.1, [])).bind fun v => .ok (v.1, v.2.1, v.2.2 ++ s.2) :=
  (perform_preceded hw fuel s.2 op (s.1, [])).symm

end Journaled

/-- The moment after somebody took the console. -/
def taken {σ : Type} (s : Journaled σ) (m : Moment σ) : Journaled σ :=
  ({ s.1 with shared := { s.1.shared with console := some .held } }, m :: s.2)

section Replies

variable {σ : Type} {hw : Handler Hardware σ}
  {perform : Op σ → Journaled σ → Except Halt (Result × Journaled σ)} {s s' : Journaled σ}

/-- A request on the shared state changes that state alone, and is noted. -/
theorem service_reply {r : Service} {v : r.Reply}
    (hrun : Journaled.respond hw perform (.service r) s = .ok (v, s')) :
    ∃ shared, s.1.shared.respond r = .ok (v, shared) ∧
      s' = ({ s.1 with shared := shared }, .service r v :: s.2) := by
  rcases bind_eq_ok.1 hrun with ⟨⟨reply, shared⟩, hreply, hend⟩
  cases hend
  exact ⟨shared, hreply, rfl⟩

/-- Whoever waits for the console and goes on has it, or there is none. -/
theorem lockConsole_reply {v : Option Console}
    (hrun : Journaled.respond hw perform (.service .lockConsole) s = .ok (v, s')) :
    (v = none ∧ s.1.shared.console = none ∧
        s' = (s.1, .service .lockConsole none :: s.2)) ∨
      ∃ c, v = some c ∧ s.1.shared.console = some (.free c) ∧
        s' = taken s (.service .lockConsole (some c)) := by
  obtain ⟨shared, hreply, rfl⟩ := service_reply hrun
  rcases s.1.shared.respond_lockConsole with ⟨hnone, h⟩ | ⟨c, hfree, h⟩ | ⟨_, h⟩
  -- Where it is held there is no answer, which leaves two cases.
  all_goals cases hreply.symm.trans h
  · exact .inl ⟨rfl, hnone, rfl⟩
  · exact .inr ⟨c, rfl, hfree, rfl⟩

/-- Who asks for the console without waiting takes it if it is free, and leaves everything
    as it is if not. -/
theorem tryLockConsole_reply {v : Option Console}
    (hrun : Journaled.respond hw perform (.service .tryLockConsole) s = .ok (v, s')) :
    (v = none ∧ (∀ c, s.1.shared.console ≠ some (.free c)) ∧
        s' = (s.1, .service .tryLockConsole none :: s.2)) ∨
      ∃ c, v = some c ∧ s.1.shared.console = some (.free c) ∧
        s' = taken s (.service .tryLockConsole (some c)) := by
  obtain ⟨shared, hreply, rfl⟩ := service_reply hrun
  rcases s.1.shared.respond_tryLockConsole with ⟨hnot, h⟩ | ⟨c, hfree, h⟩
  all_goals cases hreply.symm.trans h
  · exact .inl ⟨rfl, hnot, rfl⟩
  · exact .inr ⟨c, rfl, hfree, rfl⟩

/-- Who asks for the backlog takes it if it is free. -/
theorem tryLockBacklog_reply {v : Option Backlog}
    (hrun : Journaled.respond hw perform (.service .tryLockBacklog) s = .ok (v, s')) :
    (v = none ∧ s.1.shared.backlog = .held ∧
        s' = (s.1, .service .tryLockBacklog none :: s.2)) ∨
      ∃ b, v = some b ∧ s.1.shared.backlog = .free b ∧
        s' = ({ s.1 with shared := { s.1.shared with backlog := .held } },
          .service .tryLockBacklog (some b) :: s.2) := by
  obtain ⟨shared, hreply, rfl⟩ := service_reply hrun
  rcases s.1.shared.respond_tryLockBacklog with ⟨hheld, h⟩ | ⟨b, hfree, h⟩
  all_goals cases hreply.symm.trans h
  · exact .inl ⟨rfl, hheld, rfl⟩
  · exact .inr ⟨b, rfl, hfree, rfl⟩

/-- A console that lies free is had at once by who waits for it. -/
theorem lockConsole_free {c : Console} {v : Option Console}
    (hrun : Journaled.respond hw perform (.service .lockConsole) s = .ok (v, s'))
    (hfree : s.1.shared.console = some (.free c)) :
    v = some c ∧ s' = taken s (.service .lockConsole (some c)) := by
  rcases lockConsole_reply hrun with ⟨_, hnone, _⟩ | ⟨d, hv, hd, hs'⟩
  · cases hnone.symm.trans hfree
  · cases hd.symm.trans hfree
    exact ⟨hv, hs'⟩

theorem tryLockConsole_free {c : Console} {v : Option Console}
    (hrun : Journaled.respond hw perform (.service .tryLockConsole) s = .ok (v, s'))
    (hfree : s.1.shared.console = some (.free c)) :
    v = some c ∧ s' = taken s (.service .tryLockConsole (some c)) := by
  rcases tryLockConsole_reply hrun with ⟨_, hnot, _⟩ | ⟨d, hv, hd, hs'⟩
  · exact absurd hfree (hnot c)
  · cases hd.symm.trans hfree
    exact ⟨hv, hs'⟩

theorem tryLockConsole_none {v : Option Console}
    (hrun : Journaled.respond hw perform (.service .tryLockConsole) s = .ok (v, s'))
    (hnot : ∀ c, s.1.shared.console ≠ some (.free c)) :
    v = none ∧ s' = (s.1, .service .tryLockConsole none :: s.2) := by
  rcases tryLockConsole_reply hrun with ⟨hv, _, hs'⟩ | ⟨c, _, hfree, _⟩
  · exact ⟨hv, hs'⟩
  · exact absurd hfree (hnot c)

theorem tryLockBacklog_free {b : Backlog} {v : Option Backlog}
    (hrun : Journaled.respond hw perform (.service .tryLockBacklog) s = .ok (v, s'))
    (hfree : s.1.shared.backlog = .free b) :
    v = some b ∧ s' = ({ s.1 with shared := { s.1.shared with backlog := .held } },
      .service .tryLockBacklog (some b) :: s.2) := by
  rcases tryLockBacklog_reply hrun with ⟨_, hheld, _⟩ | ⟨d, hv, hd, hs'⟩
  · cases hheld.symm.trans hfree
  · cases hd.symm.trans hfree
    exact ⟨hv, hs'⟩

end Replies

end Kernel

end KernelConsole
