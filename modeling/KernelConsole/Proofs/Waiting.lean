import KernelConsole.Hardware.Delay
import KernelConsole.Proofs.Traces

/-!
# Bounded Waiting, Poll by Poll

A wait asks its test, makes a delay after every no, and is over at the first yes or when
it has asked as often as it may. The test may access the hardware and keep something for
its next poll, and the delays go through the bus as well. So what a poll answers can hang on
every poll and every delay before it.

`Bus.pollAt` says what poll number `n` of a test is, if a delay is made between two polls,
however many there are. It knows of no wait and no limit. The index of the first poll that
ends with a yes is a matter of the test and the bus alone, and a wait does exactly what this
index and its limit say. A yes that only the last delay would have brought about comes too
late, since a wait ends with that delay.

## Main definitions

* `Bus.readTimes`: Reading a register several times.
* `Poll`, `Bus.poll`, `Bus.pollAt`: The polls of a test with a delay between two.
* `Poll.delay`, `Poll.delayed`, `Poll.after`: The delay after a poll, and what polls with
  their delays come to.
* `Refuses`, `Refused`, `FirstYes`: Polls that end with a no, and the first that does not.
* `RefusedTimes`: So many polls that end with a no, with a delay after each.

## Theorems

* `spinUntil_trace_succ`: One round of a wait.
* `spinUntil_trace_refused`: A wait goes on after polls that end with a no.
* `spinUntil_exact`: What a wait returns, and all its accesses.
-/

namespace KernelConsole

open Prog

variable {σ τ : Type}

/-- Reads a register several times, one read after the other. Gives the events and the
    state the bus is left in. -/
def Bus.readTimes (bus : Bus σ) (r : Register) : Nat → σ → List Event × σ
  | 0, m => ([], m)
  | n + 1, m =>
      let (value, m) := bus (.readReg r) m
      let (events, m) := bus.readTimes r n m
      (.regRead r value :: events, m)

/-- Each read is one event. -/
theorem Bus.length_readTimes (bus : Bus σ) (r : Register) (n : Nat) (m : σ) :
    (bus.readTimes r n m).1.length = n := by
  induction n generalizing m with
  | zero => rfl
  | succ n ih => exact congrArg (· + 1) (ih _)

/-- The reads are all of the register's port, and no event is anything else. -/
theorem Bus.ports_readTimes (bus : Bus σ) (r : Register) (n : Nat) (m : σ) :
    (bus.readTimes r n m).1.map Event.portRead? = List.replicate n (some r.port) := by
  induction n generalizing m with
  | zero => rfl
  | succ n ih => exact congrArg (some r.port :: ·) (ih _)

/-- A poll: what the test says, the accesses it makes, and the test and the bus after
    it. -/
structure Poll (σ τ : Type) where
  /-- The test says yes. -/
  yes : Bool
  /-- The accesses of the test, in order. -/
  events : List Event
  /-- What the test keeps for the next poll. -/
  test : τ
  /-- The state the bus is left in. -/
  machine : σ

namespace Poll

/-- The delay after a poll: four reads of the diagnostic register. -/
def delay (bus : Bus σ) (p : Poll σ τ) : List Event × σ :=
  bus.readTimes .diagnostic 4 p.machine

/-- The accesses of polls with a delay after each. -/
def delayed (bus : Bus σ) (polls : List (Poll σ τ)) : List Event :=
  polls.flatMap fun p => p.events ++ (p.delay bus).1

/-- The test and the bus after polls with a delay after each. -/
def after (bus : Bus σ) (polls : List (Poll σ τ)) (t : τ) (m : σ) : τ × σ :=
  polls.foldl (fun _ p => (p.test, (p.delay bus).2)) (t, m)

theorem delayed_cons (bus : Bus σ) (p : Poll σ τ) (rest : List (Poll σ τ)) :
    delayed bus (p :: rest) = (p.events ++ (p.delay bus).1) ++ delayed bus rest := rfl

theorem after_cons (bus : Bus σ) (p : Poll σ τ) (rest : List (Poll σ τ)) (t : τ) (m : σ) :
    after bus (p :: rest) t m = after bus rest p.test (p.delay bus).2 := rfl

end Poll

/-- A poll of a test on a bus. -/
def Bus.poll (bus : Bus σ) (fuel : Nat) (ready : τ → Io (Bool × τ)) (t : τ) (m : σ) :
    Except Halt (Poll σ τ) :=
  (bus.trace fuel (ready t) m).bind fun v => .ok ⟨v.1.1, v.2.1, v.1.2, v.2.2⟩

/-- Poll number `n` of a test, counted from zero, if there is one delay after every poll
    before it. -/
def Bus.pollAt (bus : Bus σ) (fuel : Nat) (ready : τ → Io (Bool × τ)) :
    Nat → τ → σ → Except Halt (Poll σ τ)
  | 0, t, m => bus.poll fuel ready t m
  | n + 1, t, m => (bus.poll fuel ready t m).bind fun p =>
      bus.pollAt fuel ready n p.test (p.delay bus).2

section Polls

variable {bus : Bus σ} {fuel : Nat} {ready : τ → Io (Bool × τ)} {t : τ} {m : σ}

/-- The test ends poll number `n` with a no. -/
def Refuses (bus : Bus σ) (fuel : Nat) (ready : τ → Io (Bool × τ)) (t : τ) (m : σ) (n : Nat) :
    Prop :=
  ∃ p, bus.pollAt fuel ready n t m = .ok p ∧ p.yes = false

/-- The first polls of a test, all of which end with a no. -/
def Refused (bus : Bus σ) (fuel : Nat) (ready : τ → Io (Bool × τ)) (t : τ) (m : σ)
    (polls : List (Poll σ τ)) : Prop :=
  ∀ n p, polls[n]? = some p → bus.pollAt fuel ready n t m = .ok p ∧ p.yes = false

theorem ioDelay_trace (bus : Bus σ) (fuel : Nat) (m : σ) :
    bus.trace fuel ioDelay m =
      .ok ((), (bus.readTimes .diagnostic 4 m).1, (bus.readTimes .diagnostic 4 m).2) := rfl

/-- A wait that may ask once more polls, and unless the test says yes it makes a delay and
    goes on. -/
theorem spinUntil_trace_succ (limit : Nat) :
    bus.trace fuel (spinUntil ready (limit + 1) t) m = (bus.poll fuel ready t m).bind fun p =>
      if p.yes then .ok ((true, p.test), p.events, p.machine)
      else (bus.trace fuel (spinUntil ready limit p.test) (p.delay bus).2).bind fun v =>
        .ok (v.1, (p.events ++ (p.delay bus).1) ++ v.2.1, v.2.2) := by
  -- The test runs first, and what it says decides about the rest.
  rw [spinUntil, bus.trace_bind, Bus.poll]
  cases bus.trace fuel (ready t) m with
  | error why => rfl
  | ok v =>
      rcases v with ⟨⟨yes, t'⟩, events, m'⟩
      simp only [Except.bind]
      cases yes with
      | true => exact congrArg (fun e => Except.ok ((true, t'), e, m')) (List.append_nil events)
      | false =>
          simp only [Bool.false_eq_true, if_false, bus.trace_bind, ioDelay_trace, Poll.delay,
            Except.bind]
          cases bus.trace fuel (spinUntil ready limit t') (bus.readTimes .diagnostic 4 m').2 with
          | error why => rfl
          | ok v => simp only [List.append_assoc]

/-- After a first poll, the polls are those of the test and the bus that it leaves behind,
    counted from zero again. -/
theorem pollAt_succ {p : Poll σ τ} (hpoll : bus.poll fuel ready t m = .ok p) (n : Nat) :
    bus.pollAt fuel ready (n + 1) t m = bus.pollAt fuel ready n p.test (p.delay bus).2 := by
  rw [Bus.pollAt, hpoll]
  rfl

theorem refused_nil : Refused bus fuel ready t m [] := by
  intro n p h
  rw [List.getElem?_nil] at h
  cases h

theorem refused_cons {p : Poll σ τ} {rest : List (Poll σ τ)} :
    Refused bus fuel ready t m (p :: rest) ↔
      bus.poll fuel ready t m = .ok p ∧ p.yes = false ∧
        Refused bus fuel ready p.test (p.delay bus).2 rest := by
  constructor
  · intro h
    have hfirst := h 0 p rfl
    refine ⟨hfirst.1, hfirst.2, fun n q hq => ?_⟩
    rw [← pollAt_succ hfirst.1]
    exact h (n + 1) q hq
  · rintro ⟨hpoll, hno, hrest⟩ n q hq
    cases n with
    | zero =>
        cases hq
        exact ⟨hpoll, hno⟩
    | succ n =>
        rw [pollAt_succ hpoll]
        exact hrest n q hq

/-- Polls that all end with a no can be told one after the other. -/
theorem exists_refused {k : Nat} (h : ∀ i < k, Refuses bus fuel ready t m i) :
    ∃ polls, polls.length = k ∧ Refused bus fuel ready t m polls := by
  induction k generalizing t m with
  | zero => exact ⟨[], rfl, refused_nil⟩
  | succ k ih =>
      rcases h 0 (Nat.succ_pos k) with ⟨p, hpoll, hno⟩
      -- The later polls are the first ones from where this poll has left the test and the bus.
      have hrest : ∀ i < k, Refuses bus fuel ready p.test (p.delay bus).2 i := by
        intro i hi
        rcases h (i + 1) (Nat.succ_lt_succ hi) with ⟨q, hq, hqno⟩
        exact ⟨q, (pollAt_succ hpoll i).symm.trans hq, hqno⟩
      rcases ih hrest with ⟨rest, hlength, hrefused⟩
      exact ⟨p :: rest, congrArg (· + 1) hlength, refused_cons.2 ⟨hpoll, hno, hrefused⟩⟩

/-- The polls after some that end with a no. -/
theorem pollAt_after {polls : List (Poll σ τ)} (h : Refused bus fuel ready t m polls) :
    bus.pollAt fuel ready polls.length t m =
      bus.poll fuel ready (Poll.after bus polls t m).1 (Poll.after bus polls t m).2 := by
  induction polls generalizing t m with
  | nil => rfl
  | cons p rest ih =>
      rcases refused_cons.1 h with ⟨hpoll, _, hrest⟩
      rw [List.length_cons, pollAt_succ hpoll]
      exact ih hrest

/-- After polls that end with a no, a wait goes on from where they have left the test and
    the bus. -/
theorem spinUntil_trace_refused {polls : List (Poll σ τ)}
    (h : Refused bus fuel ready t m polls) (limit : Nat) :
    bus.trace fuel (spinUntil ready (polls.length + limit) t) m =
      (bus.trace fuel (spinUntil ready limit (Poll.after bus polls t m).1)
        (Poll.after bus polls t m).2).bind fun v =>
          .ok (v.1, Poll.delayed bus polls ++ v.2.1, v.2.2) := by
  induction polls generalizing t m with
  | nil =>
      rw [List.length_nil, Nat.zero_add]
      change _ = (bus.trace fuel (spinUntil ready limit t) m).bind fun v => .ok v
      cases bus.trace fuel (spinUntil ready limit t) m <;> rfl
  | cons p rest ih =>
      rcases refused_cons.1 h with ⟨hpoll, hno, hrest⟩
      rw [List.length_cons, Nat.add_right_comm, spinUntil_trace_succ, hpoll]
      -- A no at the first poll, so its events and its delay come before everything else.
      simp only [Except.bind, hno, Bool.false_eq_true, if_false, ih hrest, Poll.after_cons,
        Poll.delayed_cons]
      generalize Poll.after bus rest p.test (p.delay bus).2 = reached
      cases bus.trace fuel (spinUntil ready limit reached.1) reached.2 with
      | error why => rfl
      | ok v => simp only [List.append_assoc]

/-- The first yes of a test comes at poll number `k`, which is `p`. -/
structure FirstYes (bus : Bus σ) (fuel : Nat) (ready : τ → Io (Bool × τ)) (t : τ) (m : σ)
    (k : Nat) (p : Poll σ τ) : Prop where
  /-- The polls before it end with a no. -/
  before : ∀ i < k, Refuses bus fuel ready t m i
  /-- It is poll number `k`. -/
  poll : bus.pollAt fuel ready k t m = .ok p
  /-- It ends with a yes. -/
  yes : p.yes = true

/-- The first `k` polls of a test, all of which end with a no, with a delay after each. -/
structure RefusedTimes (bus : Bus σ) (fuel : Nat) (ready : τ → Io (Bool × τ)) (t : τ) (m : σ)
    (k : Nat) (polls : List (Poll σ τ)) : Prop where
  /-- They are the first polls of the test, and end with a no. -/
  refused : Refused bus fuel ready t m polls
  /-- There are `k` of them. -/
  count : polls.length = k
  /-- Each delay is four reads of one port. -/
  delays : ∀ p ∈ polls, (p.delay bus).1.map Event.portRead? = List.replicate 4 (some 0x84)
  /-- All delays together are `4 * k` reads. -/
  reads : (polls.flatMap fun p => (p.delay bus).1).length = 4 * k

/-- Polls that all end with a no have the delays that the specification counts: four reads
    each. -/
theorem Refused.times {polls : List (Poll σ τ)} (h : Refused bus fuel ready t m polls) :
    RefusedTimes bus fuel ready t m polls.length polls := by
  refine ⟨h, rfl, fun p _ => bus.ports_readTimes .diagnostic 4 p.machine, ?_⟩
  have hdelay : ∀ p : Poll σ τ, (p.delay bus).1.length = 4 :=
    fun p => bus.length_readTimes .diagnostic 4 p.machine
  simp only [List.length_flatMap, hdelay, List.map_const', List.sum_replicate_nat]
  exact Nat.mul_comm polls.length 4

end Polls

/-- What a wait does, on any bus and with any test. If the first yes comes at poll number `k`
    below the limit, it returns true after the `k` polls before it with a delay after each,
    and that poll. If no poll below the limit ends with a yes, it returns false after as many
    polls as the limit says with a delay after each, the last one too. These are all its
    accesses, and it leaves the test and the bus as they do. If a poll does not end, no more
    does the wait. -/
theorem spinUntil_exact (bus : Bus σ) (fuel : Nat) (ready : τ → Io (Bool × τ)) (limit : Nat)
    (t : τ) (m : σ) :
    (∀ k p, k < limit → FirstYes bus fuel ready t m k p →
      ∃ polls, RefusedTimes bus fuel ready t m k polls ∧
        bus.trace fuel (spinUntil ready limit t) m =
          .ok ((true, p.test), Poll.delayed bus polls ++ p.events, p.machine)) ∧
    ((∀ i < limit, Refuses bus fuel ready t m i) →
      ∃ polls, RefusedTimes bus fuel ready t m limit polls ∧
        bus.trace fuel (spinUntil ready limit t) m =
          .ok ((false, (Poll.after bus polls t m).1), Poll.delayed bus polls,
            (Poll.after bus polls t m).2)) ∧
    ∀ k why, k < limit → (∀ i < k, Refuses bus fuel ready t m i) →
      bus.pollAt fuel ready k t m = .error why →
      bus.trace fuel (spinUntil ready limit t) m = .error why := by
  refine ⟨fun k p hk hfirst => ?_, fun hno => ?_, fun k why hk hno hstuck => ?_⟩
  · rcases exists_refused hfirst.before with ⟨polls, rfl, hrefused⟩
    rcases Nat.exists_eq_add_of_lt hk with ⟨more, rfl⟩
    have hpoll := (pollAt_after hrefused).symm.trans hfirst.poll
    refine ⟨polls, hrefused.times, ?_⟩
    -- The `k` polls are told, and the wait asks once more, which is the yes.
    rw [Nat.add_assoc, spinUntil_trace_refused hrefused, spinUntil_trace_succ, hpoll]
    simp only [Except.bind, hfirst.yes, if_true]
  · rcases exists_refused hno with ⟨polls, rfl, hrefused⟩
    refine ⟨polls, hrefused.times, ?_⟩
    -- All polls are told and none is left, so the wait gives up.
    have hrun := spinUntil_trace_refused hrefused 0
    rw [Nat.add_zero] at hrun
    rw [hrun]
    exact congrArg (fun e => Except.ok (_, e, _)) (List.append_nil _)
  · rcases exists_refused hno with ⟨polls, rfl, hrefused⟩
    rcases Nat.exists_eq_add_of_lt hk with ⟨more, rfl⟩
    have hpoll := (pollAt_after hrefused).symm.trans hstuck
    rw [Nat.add_assoc, spinUntil_trace_refused hrefused, spinUntil_trace_succ, hpoll]
    rfl

/-- A bus that counts its accesses, and whose registers read as a ready transmitter at one of
    them. -/
def readyAt (n : Nat) : Bus Nat
  | .readReg _, m => (if m = n then 0x20 else 0, m + 1)
  | .writeReg _ _, m => ((), m + 1)
  | .readCell _, m => (0, m + 1)
  | .writeCell _ _, m => ((), m + 1)

/-- A test of the transmitter that counts its polls. -/
def transmitterReady (polls : Nat) : Io (Bool × Nat) := do
  let status ← readReg (.uart 0x3F8 .lineStatus)
  pure (status &&& 0x20 != 0, polls + 1)

/-- The transmitter is ready at the third poll. A wait of two polls ends just before it, with
    the delay that would have brought the yes about. -/
theorem spinUntil_exact_third_poll :
    (FirstYes (readyAt 10) 0 transmitterReady 0 0 2
        ⟨true, [.regRead (.uart 0x3F8 .lineStatus) 0x20], 3, 11⟩ ∧
      ∃ polls, RefusedTimes (readyAt 10) 0 transmitterReady 0 0 2 polls ∧
        (readyAt 10).trace 0 (spinUntil transmitterReady 3 0) 0 =
          .ok ((true, 3), Poll.delayed (readyAt 10) polls ++
            [.regRead (.uart 0x3F8 .lineStatus) 0x20], 11)) ∧
    (∀ i < 2, Refuses (readyAt 10) 0 transmitterReady 0 0 i) ∧
      ∃ polls, RefusedTimes (readyAt 10) 0 transmitterReady 0 0 2 polls ∧
        (readyAt 10).trace 0 (spinUntil transmitterReady 2 0) 0 =
          .ok ((false, (Poll.after (readyAt 10) polls 0 0).1), Poll.delayed (readyAt 10) polls,
            (Poll.after (readyAt 10) polls 0 0).2) := by
  have hno : ∀ i < 2, Refuses (readyAt 10) 0 transmitterReady 0 0 i := by
    intro i hi
    have hcases : i = 0 ∨ i = 1 := by omega
    rcases hcases with rfl | rfl
    · exact ⟨_, rfl, rfl⟩
    · exact ⟨_, rfl, rfl⟩
  have hfirst : FirstYes (readyAt 10) 0 transmitterReady 0 0 2
      ⟨true, [.regRead (.uart 0x3F8 .lineStatus) 0x20], 3, 11⟩ := ⟨hno, rfl, rfl⟩
  refine ⟨⟨hfirst, ?_⟩, hno, ?_⟩
  · exact (spinUntil_exact (readyAt 10) 0 transmitterReady 3 0 0).1 2 _ (by decide) hfirst
  · exact (spinUntil_exact (readyAt 10) 0 transmitterReady 2 0 0).2.1 hno

end KernelConsole
