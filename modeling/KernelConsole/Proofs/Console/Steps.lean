import KernelConsole.Console.Command
import KernelConsole.Hardware.Bus
import KernelConsole.Proofs.Ensures

/-!
# Steps of a Console

A command is made of few things that can happen to a console: a look at one of
the input devices, a byte that is taken from the queue, and work on the output
devices. Each is a step from one point of a run to the next, where a point is
the console together with the hardware and all that was seen on the bus so far.

Every run of a command is a path of such steps. Whatever holds at every point of
every path then holds at every point of every run, also in the middle of a
command, and also for the bytes that a reader takes inside one.

A path only tells what happened. A route tells for every step what was seen on the
bus meanwhile, too, so statements about who read a register are about routes. Every
path is one.

A reader that waits passes over zero, so what it is delivered are the bytes other
than zero that it takes.

## Main definitions

* `Console.Point`: A console in the middle of a run.
* `Console.Action`: What can happen to it.
* `Console.Step`, `Console.Path`: One step of a run, and several.
* `Console.Leg`, `Console.Route`: A step with what was seen meanwhile, and several.
* `Console.delivered`: The bytes delivered along a path.
* `LineBuffer.after`: A line after a byte has edited it.
* `Console.Command.Does`: What can happen while a command runs.
* `Console.Answers`: What the answer of a command has to do with what was delivered.
* `Console.AnswersAll`: The same for several commands.

## Theorems

* `Console.Path.append`: Paths compose.
* `Console.Path.exists_route`: A path is a route.
* `Console.serialInterrupt_path`, `keyboardInterrupt_path`, `input_path`,
  `blockingRead_path`, `init_path`, `readLine_path`: The commands that use the
  queue, as paths.
* `Console.perform_path`: A run of a command is a path.
* `Console.performAll_path`: A run of several commands is a path.
-/

namespace KernelConsole

/-- A handler of accesses with the events and the reports of the run beside its
    state, each newest first. -/
abbrev Handler.observed {σ : Type} (hw : Handler Hardware σ) :
    Handler Reporting ((σ × List Event) × List Record) :=
  hw.recorded.keepingRecords

/-- The line after a byte has edited it. A byte that ends it leaves it as it is. -/
def LineBuffer.after (b : LineBuffer) (byte : UInt8) : LineBuffer :=
  match b.editFor byte with
  | .erase => b.erase
  | .finish => b
  | .append room => b.append byte room
  | .ignore => b

namespace Console

/-- A console with the hardware, the events and the reports so far. -/
abbrev Point (σ : Type) : Type := Console × (σ × List Event) × List Record

/-- What was seen on the bus so far, newest first. -/
def Point.events {σ : Type} (p : Point σ) : List Event := p.2.1.2

/-- What can happen to a console. -/
inductive Action
  /-- The serial port was asked, and gave a byte or nothing. -/
  | receive (byte? : Option UInt8)
  /-- The keyboard was asked, and gave an event or nothing. -/
  | scan (event? : Option KeyEvent)
  /-- A byte was taken from the queue, or nothing if there was none. -/
  | take (byte? : Option UInt8)
  /-- The serial port was programmed. -/
  | program
  /-- The output devices were used, or the screen was found. -/
  | work

/-- The programs that use no input device. -/
inductive Work (c : Console) : LoggedIo Console → Prop
  | startScreen : Work c do
      let screen ← c.screen.init
      pure { c with screen }
  | report (level : Level) (target message : String) : Work c do
      report level target message
      pure c
  | output (byte : UInt8) : Work c (c.output byte).unreported
  | setColor (foreground background : Color) : Work c (pure (c.setColor foreground background))
  | clearScreen : Work c c.clearScreen.unreported

variable {σ : Type}

/-- One step of a run. -/
inductive Step (hw : Handler Hardware σ) (fuel : Nat) : Point σ → Action → Point σ → Prop
  /-- A serial port that is marked present is asked for a byte, which is
      queued. -/
  | receive {c : Console} {s s' : σ × List Event} {records : List Record} {byte? : Option UInt8}
      (present : c.uart.present = true)
      (run : c.uart.tryReceive.run hw.recorded fuel s = .ok (byte?, s')) :
      Step hw fuel (c, s, records) (.receive byte?) (byte?.elim c c.enqueue, s', records)
  /-- The keyboard is asked for an event, whose byte is queued. -/
  | scan {c : Console} {s s' : (σ × List Event) × List Record} {event? : Option KeyEvent}
      {keyboard : Keyboard}
      (run : c.keyboard.poll.run hw.observed fuel s = .ok ((event?, keyboard), s')) :
      Step hw fuel (c, s) (.scan event?)
        (event?.elim { c with keyboard } ({ c with keyboard } : Console).enqueueEvent, s')
  /-- The oldest byte is taken from the queue. -/
  | take {c : Console} {s : (σ × List Event) × List Record} :
      Step hw fuel (c, s) (.take c.queue.pop.1) ({ c with queue := c.queue.pop.2 }, s)
  /-- The serial port is programmed. A byte that was left in it is read, and thrown away. -/
  | program {c : Console} {s s' : (σ × List Event) × List Record} {uart : Uart}
      (run : c.uart.init.unreported.run hw.observed fuel s = .ok (uart, s')) :
      Step hw fuel (c, s) .program ({ c with uart }, s')
  /-- Some work is done. -/
  | work {c c' : Console} {s s' : (σ × List Event) × List Record} {p : LoggedIo Console}
      (isWork : Work c p) (run : p.run hw.observed fuel s = .ok (c', s')) :
      Step hw fuel (c, s) .work (c', s')

/-- Several steps of a run. -/
inductive Path (hw : Handler Hardware σ) (fuel : Nat) : Point σ → List Action → Point σ → Prop
  | nil (p : Point σ) : Path hw fuel p [] p
  | cons {p q r : Point σ} {a : Action} {as : List Action} :
      Step hw fuel p a q → Path hw fuel q as r → Path hw fuel p (a :: as) r

variable {hw : Handler Hardware σ} {fuel : Nat}

theorem Path.append {p q r : Point σ} {as bs : List Action} (h₁ : Path hw fuel p as q)
    (h₂ : Path hw fuel q bs r) : Path hw fuel p (as ++ bs) r := by
  induction h₁ with
  | nil p => exact h₂
  | cons hstep _ ih => exact .cons hstep (ih h₂)

theorem Path.snoc {p q r : Point σ} {as : List Action} {a : Action} (h₁ : Path hw fuel p as q)
    (h₂ : Step hw fuel q a r) : Path hw fuel p (as ++ [a]) r :=
  h₁.append (.cons h₂ (.nil r))

/-- What happened in a step, with what was seen on the bus meanwhile, newest first. -/
structure Leg where
  action : Action
  events : List Event

/-- The leg leads from one point to another: it is a step, and its events are all that
    was seen in between. -/
structure Leads (hw : Handler Hardware σ) (fuel : Nat) (p : Point σ) (leg : Leg) (q : Point σ) :
    Prop where
  step : Step hw fuel p leg.action q
  events : q.events = leg.events ++ p.events

/-- Several legs of a run. -/
inductive Route (hw : Handler Hardware σ) (fuel : Nat) : Point σ → List Leg → Point σ → Prop
  | nil (p : Point σ) : Route hw fuel p [] p
  | snoc {p q r : Point σ} {legs : List Leg} {leg : Leg} :
      Route hw fuel p legs q → Leads hw fuel q leg r → Route hw fuel p (legs ++ [leg]) r

/-- What was seen once stays seen. -/
theorem Step.seen {p q : Point σ} {a : Action} (hstep : Step hw fuel p a q) :
    p.events <:+ q.events := by
  have hgrows : ∀ {α : Type} (io : LoggedIo α) (s : (σ × List Event) × List Record),
      io.Ensures hw.observed fuel s fun _ s' => s.1.2 <:+ s'.1.2 := by
    intro α io s
    refine Prog.Only.ensures (K := fun t : (σ × List Event) × List Record => s.1.2 <:+ t.1.2)
      (fun r _ t ht v t' hreply => ?_) (Prog.only_true io) List.suffix_rfl
    cases r with
    | access a =>
        rcases bind_eq_ok.1 hreply with ⟨w, hrecorded, hw'⟩
        rcases bind_eq_ok.1 hrecorded with ⟨u, _, hu⟩
        cases hu
        cases hw'
        exact ht.trans (List.suffix_cons _ _)
    | report _ =>
        cases hreply
        exact ht
  -- Each step runs one program, and a program only adds to what was seen.
  cases hstep with
  | @receive c s s' records byte? present run =>
      refine hgrows c.uart.tryReceive.unreported (s, records) byte? (s', records) ?_
      rw [Prog.run_unreported, run]
      rfl
  | scan run => exact hgrows _ _ _ _ run
  | take => exact List.suffix_rfl
  | program run => exact hgrows _ _ _ _ run
  | work _ run => exact hgrows _ _ _ _ run

/-- A path is a route, and goes on from any other. -/
theorem Path.exists_route {p q r : Point σ} {legs : List Leg} {as : List Action}
    (hpath : Path hw fuel q as r) (hroute : Route hw fuel p legs q) :
    ∃ more, Route hw fuel p (legs ++ more) r ∧ more.map Leg.action = as := by
  induction hpath generalizing legs with
  | nil q => exact ⟨[], (List.append_nil legs).symm ▸ hroute, rfl⟩
  | @cons q q' r a as hstep _ ih =>
      rcases hstep.seen with ⟨events, hevents⟩
      have hleads : Leads hw fuel q ⟨a, events⟩ q' := ⟨hstep, hevents.symm⟩
      rcases ih (hroute.snoc hleads) with ⟨more, hmore, has⟩
      refine ⟨⟨a, events⟩ :: more, ?_, congrArg (a :: ·) has⟩
      rwa [List.append_assoc, List.singleton_append] at hmore

/-- What can happen while a console is brought up: the keyboard is asked, the serial port is
    programmed, and the output devices are used. -/
def Action.BringsUp : Action → Prop
  | .scan _ | .program | .work => True
  | .receive _ | .take _ => False

/-- What can happen while a byte is taken in: the input devices are asked, and the queue
    gives a byte. -/
def Action.TakesIn : Action → Prop
  | .receive _ | .scan _ | .take _ => True
  | .program | .work => False

/-- What can happen while a command runs. The serial port is programmed only to bring up the
    console, so no look at it can throw a byte away. -/
def Command.Does : Command → Action → Prop
  | .init, a => a.BringsUp
  | .serialInterrupt, a => ∃ byte?, a = .receive byte?
  | .keyboardInterrupt, a => ∃ event?, a = .scan event?
  | .input, a | .blockingRead, a => a.TakesIn
  | .readLine _ _, a => a ≠ .program
  | .output _, a | .write _, a | .record _, a | .flush _, a | .setColor _ _, a | .clearScreen, a =>
      a = .work

/-- The bytes delivered along a path: those taken that are not zero. -/
def delivered : List Action → List UInt8
  | [] => []
  | .take (some byte) :: rest => if byte = 0 then delivered rest else byte :: delivered rest
  | _ :: rest => delivered rest

/-- What is delivered along two paths is what is delivered along each. -/
theorem delivered_append (as bs : List Action) :
    delivered (as ++ bs) = delivered as ++ delivered bs := by
  induction as with
  | nil => rfl
  | cons a rest ih =>
      cases a with
      | receive byte? => exact ih
      | scan event? => exact ih
      | program => exact ih
      | work => exact ih
      | take byte? =>
          cases byte? with
          | none => exact ih
          | some byte =>
              simp only [List.cons_append, delivered, ih]
              by_cases hzero : byte = 0
              · rw [if_pos hzero, if_pos hzero]
              · rw [if_neg hzero, if_neg hzero, List.cons_append]

/-- Where nothing is taken, nothing is delivered. -/
theorem delivered_eq_nil {as : List Action} (has : ∀ a ∈ as, ∀ byte?, a ≠ .take byte?) :
    delivered as = [] := by
  induction as with
  | nil => rfl
  | cons a rest ih =>
      have hrest := ih fun b hb => has b (List.mem_cons_of_mem _ hb)
      cases a with
      | receive _ => exact hrest
      | scan _ => exact hrest
      | program => exact hrest
      | work => exact hrest
      | take byte? => exact absurd rfl (has _ List.mem_cons_self byte?)

/-- Nothing is taken while a console is brought up, so nothing is delivered. -/
theorem delivered_of_bringsUp {as : List Action} (has : ∀ a ∈ as, a.BringsUp) :
    delivered as = [] := by
  refine delivered_eq_nil fun a ha byte? htake => ?_
  rw [htake] at ha
  exact has _ ha

theorem delivered_of_work {as : List Action} (has : ∀ a ∈ as, a = .work) : delivered as = [] :=
  delivered_of_bringsUp fun a ha => has a ha ▸ trivial

theorem ne_program_of_work {as : List Action} (has : ∀ a ∈ as, a = .work) :
    ∀ a ∈ as, a ≠ .program :=
  fun a ha => has a ha ▸ nofun

theorem Action.TakesIn.ne_program {a : Action} (ha : a.TakesIn) : a ≠ .program := by
  rintro rfl
  exact ha

/-- What the answer of a command has to do with the bytes taken along its path: a
    reader returns the last byte taken, a line is edited by the bytes delivered,
    and nothing else takes a byte. -/
def Answers : Command → Answer → List Action → Prop
  | .input, .byte byte?, as => ∃ before, as = before ++ [.take byte?] ∧ delivered before = []
  | .blockingRead, .byte byte?, as =>
      ∃ before byte, byte? = some byte ∧ as = before ++ [.take (some byte)] ∧
        delivered before = []
  | .readLine _ buffer, .line line, as =>
      line = (delivered as).foldl LineBuffer.after (LineBuffer.ofBytes buffer)
  | .input, _, _ | .blockingRead, _, _ | .readLine _ _, _, _ => False
  | _, _, as => delivered as = []

/-- A look at the serial port is one step for each round, and takes nothing from the queue. -/
theorem serialInterrupt_path (c : Console) (s : σ × List Event) (records : List Record) :
    c.serialInterrupt.Ensures hw.recorded fuel s fun c' s' =>
      ∃ as, Path hw fuel (c, s, records) as (c', s', records) ∧
        ∀ a ∈ as, ∃ byte?, a = .receive byte? := by
  unfold serialInterrupt
  by_cases hpresent : c.uart.present = true
  · rw [if_pos hpresent]
    -- Queueing a byte does not touch the serial port, so it is present in every round.
    refine Prog.ensures_iterate (fun c' s' => c'.uart.present = true ∧
      ∃ as, Path hw fuel (c, s, records) as (c', s', records) ∧
        ∀ a ∈ as, ∃ byte?, a = .receive byte?)
      ⟨hpresent, [], .nil _, nofun⟩ fun d t ⟨hd, as, hpath, has⟩ => ?_
    refine Prog.ensures_bind fun byte? t' hrun => ?_
    have hnext := hpath.snoc (Step.receive hd hrun)
    have has' : ∀ a ∈ as ++ [.receive byte?], ∃ byte?, a = .receive byte? :=
      List.forall_mem_append.2 ⟨has, List.forall_mem_singleton.2 ⟨byte?, rfl⟩⟩
    cases byte? with
    | none => exact Prog.ensures_pure ⟨_, hnext, has'⟩
    | some byte =>
        refine Prog.ensures_pure ⟨?_, _, hnext, has'⟩
        unfold enqueue
        by_cases hzero : byte = 0
        · rw [if_pos hzero]
          exact hd
        · rw [if_neg hzero]
          exact hd
  · rw [if_neg hpresent]
    exact Prog.ensures_pure ⟨[], .nil _, nofun⟩

/-- A look at the keyboard is one step for each round. -/
theorem keyboardInterrupt_path (c : Console) (s : (σ × List Event) × List Record) :
    c.keyboardInterrupt.Ensures hw.observed fuel s fun c' s' =>
      ∃ as, Path hw fuel (c, s) as (c', s') ∧ ∀ a ∈ as, ∃ event?, a = .scan event? := by
  unfold keyboardInterrupt
  -- The rounds so far are a path, and the next one is a step more.
  refine Prog.ensures_iterate (fun c' s' =>
    ∃ as, Path hw fuel (c, s) as (c', s') ∧ ∀ a ∈ as, ∃ event?, a = .scan event?)
    ⟨[], .nil _, nofun⟩ fun d t ⟨as, hpath, has⟩ => ?_
  refine Prog.ensures_bind fun ⟨event?, keyboard⟩ t' hrun => ?_
  have hnext := hpath.snoc (Step.scan hrun)
  have has' : ∀ a ∈ as ++ [.scan event?], ∃ event?, a = .scan event? :=
    List.forall_mem_append.2 ⟨has, List.forall_mem_singleton.2 ⟨event?, rfl⟩⟩
  cases event? with
  | none => exact Prog.ensures_pure ⟨_, hnext, has'⟩
  | some event => exact Prog.ensures_pure ⟨_, hnext, has'⟩

/-- To take a byte both devices are looked at, which takes nothing from the queue, and then
    the queue gives one. -/
theorem input_path (c : Console) (s : (σ × List Event) × List Record) :
    c.input.Ensures hw.observed fuel s fun v s' =>
      ∃ before, Path hw fuel (c, s) (before ++ [.take v.1]) (v.2, s') ∧
        delivered before = [] ∧ ∀ a ∈ before, a.TakesIn := by
  refine Prog.ensures_bind (Prog.ensures_unreported ?_)
  refine Prog.ensures_mono (serialInterrupt_path c s.1 s.2) fun c₁ s₁ ⟨as, hserial, has⟩ => ?_
  refine Prog.ensures_bind ?_
  refine Prog.ensures_mono (keyboardInterrupt_path c₁ _) fun c₂ s₂ ⟨bs, hkeyboard, hbs⟩ => ?_
  have hlooks : ∀ a ∈ as ++ bs, a.TakesIn ∧ ∀ byte?, a ≠ .take byte? := by
    refine List.forall_mem_append.2 ⟨fun a ha => ?_, fun a ha => ?_⟩
    · obtain ⟨byte?, rfl⟩ := has a ha
      exact ⟨trivial, nofun⟩
    · obtain ⟨event?, rfl⟩ := hbs a ha
      exact ⟨trivial, nofun⟩
  exact Prog.ensures_pure ⟨as ++ bs, (hserial.append hkeyboard).snoc Step.take,
    delivered_eq_nil fun a ha => (hlooks a ha).2, fun a ha => (hlooks a ha).1⟩

/-- Waiting for a byte is taking one again and again. What is taken before the last time is
    nothing or zero. -/
theorem blockingRead_path (c : Console) (s : (σ × List Event) × List Record) :
    c.blockingRead.Ensures hw.observed fuel s fun v s' =>
      v.1 ≠ 0 ∧ ∃ before, Path hw fuel (c, s) (before ++ [.take (some v.1)]) (v.2, s') ∧
        delivered before = [] ∧ ∀ a ∈ before, a.TakesIn := by
  unfold blockingRead
  refine Prog.ensures_iterate (fun c' s' =>
    ∃ as, Path hw fuel (c, s) as (c', s') ∧ delivered as = [] ∧ ∀ a ∈ as, a.TakesIn)
    ⟨[], .nil _, rfl, nofun⟩ fun d t ⟨as, hpath, htaken, has⟩ => ?_
  refine Prog.ensures_bind ?_
  refine Prog.ensures_mono (input_path d t)
    fun ⟨byte?, d'⟩ t' ⟨before, hinput, hbefore, hlooks⟩ => ?_
  have hnext := hpath.append hinput
  rw [← List.append_assoc] at hnext
  have hnone : delivered (as ++ before) = [] := by
    rw [delivered_append, htaken, hbefore]
    rfl
  have htakesIn : ∀ a ∈ as ++ before, a.TakesIn := List.forall_mem_append.2 ⟨has, hlooks⟩
  have hagain : ∀ a ∈ as ++ before ++ [.take byte?], a.TakesIn :=
    List.forall_mem_append.2 ⟨htakesIn, List.forall_mem_singleton.2 trivial⟩
  cases byte? with
  | none =>
      refine Prog.ensures_pure ⟨_, hnext, ?_, hagain⟩
      rw [delivered_append, hnone]
      rfl
  | some byte =>
      by_cases hzero : byte = 0
      · -- zero is taken but not delivered, and the loop goes on
        simp only [if_pos hzero]
        refine Prog.ensures_pure ⟨_, hnext, ?_, hagain⟩
        rw [delivered_append, hnone, hzero]
        rfl
      · simp only [if_neg hzero]
        exact Prog.ensures_pure ⟨hzero, _, hnext, hnone, htakesIn⟩

theorem output_path (c : Console) (byte : UInt8) (s : (σ × List Event) × List Record) :
    (c.output byte).unreported.Ensures hw.observed fuel s fun c' s' =>
      Path hw fuel (c, s) [.work] (c', s') :=
  fun _ _ hrun => .cons (.work (.output byte) hrun) (.nil _)

/-- Writing a text is one step for each byte. -/
theorem writeBytes_path (bytes : List UInt8) (c : Console)
    (s : (σ × List Event) × List Record) :
    (c.writeBytes bytes).unreported.Ensures hw.observed fuel s fun c' s' =>
      ∃ as, Path hw fuel (c, s) as (c', s') ∧ ∀ a ∈ as, a = .work := by
  induction bytes generalizing c s with
  | nil => exact Prog.ensures_pure ⟨[], .nil _, nofun⟩
  | cons byte rest ih =>
      rw [writeBytes, Prog.unreported, Prog.interpret_bind]
      refine Prog.ensures_bind ?_
      refine Prog.ensures_mono (output_path c byte s) fun c₁ s₁ hfirst => ?_
      refine Prog.ensures_mono (ih c₁ s₁) fun c₂ s₂ ⟨as, hrest, has⟩ => ?_
      exact ⟨_, hfirst.append hrest, List.forall_mem_cons.2 ⟨rfl, has⟩⟩

/-- A console that is brought up takes no byte and does not look at the serial port. -/
theorem init_path (c : Console) (s : (σ × List Event) × List Record) :
    c.init.Ensures hw.observed fuel s fun c' s' =>
      ∃ as, Path hw fuel (c, s) as (c', s') ∧ ∀ a ∈ as, a.BringsUp := by
  unfold init
  refine Prog.ensures_bind fun screen s₁ hscreen => ?_
  have hfirst : Step hw fuel (c, s) .work ({ c with screen }, s₁) := by
    refine .work .startScreen ?_
    rw [Prog.run_bind, hscreen]
    rfl
  refine Prog.ensures_bind ?_
  refine Prog.ensures_mono (keyboardInterrupt_path _ s₁) fun c₂ s₂ ⟨as, hkeyboard, has⟩ => ?_
  refine Prog.ensures_bind fun uart s₃ huart => ?_
  -- The screen is found, the keyboard looked at and the serial port programmed, in this order.
  have hpath := (Path.cons hfirst hkeyboard).snoc (Step.program huart)
  have hscans : ∀ a ∈ as, a.BringsUp := fun a ha => by
    obtain ⟨event?, rfl⟩ := has a ha
    trivial
  have hall : ∀ a ∈ .work :: as ++ [.program], a.BringsUp := List.forall_mem_append.2
    ⟨List.forall_mem_cons.2 ⟨trivial, hscans⟩, List.forall_mem_singleton.2 trivial⟩
  by_cases hpresent : uart.present = true
  · simp only [if_pos hpresent]
    exact Prog.ensures_pure ⟨_, hpath, hall⟩
  · simp only [if_neg hpresent]
    refine Prog.ensures_bind fun _ s₄ hreport => ?_
    have hthird : Step hw fuel ({ c₂ with uart }, s₃) .work ({ c₂ with uart }, s₄) := by
      refine .work (.report .warn "pc_console::console" "serial port does not exist") ?_
      rw [Prog.run_bind, hreport]
      rfl
    refine Prog.ensures_mono (writeBytes_path _ _ s₄) fun c₅ s₅ ⟨bs, htext, hbs⟩ => ?_
    refine ⟨_, (hpath.snoc hthird).append htext, ?_⟩
    exact List.forall_mem_append.2
      ⟨List.forall_mem_append.2 ⟨hall, List.forall_mem_singleton.2 trivial⟩,
        fun a ha => hbs a ha ▸ trivial⟩

/-- A byte that edits a line is at most one step of output, and takes nothing. -/
theorem edit_path (c : Console) (b : LineBuffer) (byte : UInt8)
    (s : (σ × List Event) × List Record) :
    (c.edit b byte).unreported.Ensures hw.observed fuel s fun v s' =>
      ∃ as, Path hw fuel (c, s) as ((Sum.elim id id v).1, s') ∧ (∀ a ∈ as, a = .work) ∧
        (Sum.elim id id v).2 = b.after byte := by
  -- Every edit but one that is ignored echoes one byte.
  have hecho : ∀ (echo : UInt8)
      (result : Console → (Console × LineBuffer) ⊕ (Console × LineBuffer)),
      (∀ d, (Sum.elim id id (result d)).1 = d ∧ (Sum.elim id id (result d)).2 = b.after byte) →
      (do let c ← c.output echo; pure (result c) : Io _).unreported.Ensures hw.observed fuel s
        fun v s' => ∃ as, Path hw fuel (c, s) as ((Sum.elim id id v).1, s') ∧
          (∀ a ∈ as, a = .work) ∧ (Sum.elim id id v).2 = b.after byte := by
    intro echo result hresult
    rw [Prog.unreported, Prog.interpret_bind]
    refine Prog.ensures_bind ?_
    refine Prog.ensures_mono (output_path c echo s) fun d t hpath => ?_
    refine Prog.ensures_pure ⟨[.work], ?_, List.forall_mem_singleton.2 rfl, (hresult d).2⟩
    rw [(hresult d).1]
    exact hpath
  unfold edit
  cases hedit : b.editFor byte with
  | erase => exact hecho 0x08 _ fun d => ⟨rfl, by simp only [LineBuffer.after, hedit]; rfl⟩
  | finish => exact hecho 0x0A _ fun d => ⟨rfl, by simp only [LineBuffer.after, hedit]; rfl⟩
  | append room => exact hecho byte _ fun d => ⟨rfl, by simp only [LineBuffer.after, hedit]; rfl⟩
  | ignore =>
      exact Prog.ensures_pure ⟨[], .nil _, nofun, by simp only [LineBuffer.after, hedit]; rfl⟩

/-- A line is edited by the bytes that are delivered while it is read, in order. -/
theorem readLine_path (c : Console) (prompt : Option String) (buffer : Array UInt8)
    (s : (σ × List Event) × List Record) :
    (c.readLine prompt buffer).Ensures hw.observed fuel s fun v s' =>
      ∃ as, Path hw fuel (c, s) as (v.2, s') ∧
        v.1 = (delivered as).foldl LineBuffer.after (LineBuffer.ofBytes buffer) ∧
        ∀ a ∈ as, a ≠ .program := by
  have hprompt : (c.writePrompt prompt).unreported.Ensures hw.observed fuel s fun c' s' =>
      ∃ as, Path hw fuel (c, s) as (c', s') ∧ ∀ a ∈ as, a = .work := by
    cases prompt with
    | none => exact Prog.ensures_pure ⟨[], .nil _, nofun⟩
    | some text => exact writeBytes_path _ c s
  unfold readLine
  refine Prog.ensures_bind ?_
  refine Prog.ensures_mono hprompt fun c₁ s₁ ⟨as, hpath, has⟩ => ?_
  refine Prog.ensures_bind ?_
  -- Between two bytes the line is what the bytes delivered so far have made of it.
  refine Prog.ensures_iterate (Q := fun v s' => Prog.Ensures _ _ _ s' _)
    (fun v s' => ∃ as, Path hw fuel (c, s) as (v.1, s') ∧
      v.2 = (delivered as).foldl LineBuffer.after (LineBuffer.ofBytes buffer) ∧
      ∀ a ∈ as, a ≠ .program)
    ⟨as, hpath, by rw [delivered_of_work has]; rfl, ne_program_of_work has⟩
    fun ⟨d, b⟩ t ⟨bs, hbs, hb, hbsNot⟩ => ?_
  refine Prog.ensures_bind ?_
  refine Prog.ensures_mono (blockingRead_path d t)
    fun ⟨byte, d'⟩ t' ⟨hne, before, hread, hnone, hbefore⟩ => ?_
  refine Prog.ensures_mono (edit_path d' b byte t') fun v t'' ⟨cs, hedit, hcs, hline⟩ => ?_
  have hnext := (hbs.append hread).append hedit
  -- One byte more is delivered, and it is the one that has edited the line.
  have hafter : (Sum.elim id id v).2 =
      (delivered (bs ++ (before ++ [.take (some byte)]) ++ cs)).foldl LineBuffer.after
        (LineBuffer.ofBytes buffer) := by
    simp only [delivered_append, hnone, delivered_of_work hcs, delivered, if_neg hne,
      List.nil_append, List.append_nil, List.foldl_append, List.foldl_cons, List.foldl_nil, hline]
    exact congrArg (LineBuffer.after · byte) hb
  have hnot : ∀ a ∈ bs ++ (before ++ [.take (some byte)]) ++ cs, a ≠ .program :=
    List.forall_mem_append.2 ⟨List.forall_mem_append.2 ⟨hbsNot, List.forall_mem_append.2
      ⟨fun a ha => (hbefore a ha).ne_program, List.forall_mem_singleton.2 nofun⟩⟩,
      ne_program_of_work hcs⟩
  cases v with
  | inl w => exact ⟨_, hnext, hafter, hnot⟩
  | inr w => exact Prog.ensures_pure ⟨_, hnext, hafter, hnot⟩

/-- A command that returns nothing takes its path from the program it runs. -/
theorem silently_path {P : Action → Prop} {p : LoggedIo Console} {c : Console}
    {s : (σ × List Event) × List Record}
    (hp : p.Ensures hw.observed fuel s fun c' s' =>
      ∃ as, Path hw fuel (c, s) as (c', s') ∧ ∀ a ∈ as, P a)
    (hP : ∀ a byte?, P a → a ≠ .take byte?) :
    (silently p).Ensures hw.observed fuel s fun v s' => v.1 = .nothing ∧
      ∃ as, Path hw fuel (c, s) as (v.2, s') ∧ delivered as = [] ∧ ∀ a ∈ as, P a :=
  Prog.ensures_bind (Prog.ensures_mono hp fun _ _ ⟨as, hpath, has⟩ => Prog.ensures_pure
    ⟨rfl, as, hpath, delivered_eq_nil fun a ha byte? => hP a byte? (has a ha), has⟩)

/-- A run of a command is a path of what the command does, and the answer is what was taken
    along it. -/
theorem perform_path (c : Console) (command : Command) (s : (σ × List Event) × List Record) :
    (c.perform command).Ensures hw.observed fuel s fun v s' =>
      ∃ as, Path hw fuel (c, s) as (v.2, s') ∧ Answers command v.1 as ∧
        ∀ a ∈ as, command.Does a := by
  have hwork : ∀ (a : Action) byte?, a = .work → a ≠ .take byte? := by
    rintro a byte? rfl
    exact nofun
  -- Each command runs one program, and the path is that of the program.
  cases command with
  | init =>
      refine Prog.ensures_mono (silently_path (init_path c s) fun a byte? ha => ?_)
        fun _ _ ⟨_, h⟩ => h
      rintro rfl
      exact ha
  | output byte =>
      have houtput : (c.output byte).unreported.Ensures hw.observed fuel s fun c' s' =>
          ∃ as, Path hw fuel (c, s) as (c', s') ∧ ∀ a ∈ as, a = .work :=
        Prog.ensures_mono (output_path c byte s) fun _ _ h =>
          ⟨_, h, List.forall_mem_singleton.2 rfl⟩
      exact Prog.ensures_mono (silently_path houtput hwork) fun _ _ ⟨_, h⟩ => h
  | write text =>
      exact Prog.ensures_mono (silently_path (writeBytes_path _ c s) hwork) fun _ _ ⟨_, h⟩ => h
  | record r =>
      exact Prog.ensures_mono (silently_path (writeBytes_path _ c s) hwork) fun _ _ ⟨_, h⟩ => h
  | flush b =>
      refine Prog.ensures_bind ?_
      rw [Backlog.flushInto_eq]
      change (Prog.unreported (_ >>= _)).Ensures _ _ _ _
      rw [Prog.unreported, Prog.interpret_bind]
      refine Prog.ensures_bind ?_
      refine Prog.ensures_mono (writeBytes_path _ c s) fun _ _ ⟨as, hpath, has⟩ => ?_
      exact Prog.ensures_pure (Prog.ensures_pure ⟨as, hpath, delivered_of_work has, has⟩)
  | setColor foreground background =>
      have hstep : Step hw fuel (c, s) .work (c.setColor foreground background, s) :=
        .work (.setColor foreground background) rfl
      have hset : (pure (c.setColor foreground background) : LoggedIo Console).Ensures hw.observed
          fuel s fun c' s' => ∃ as, Path hw fuel (c, s) as (c', s') ∧ ∀ a ∈ as, a = .work :=
        Prog.ensures_pure ⟨[.work], .cons hstep (.nil _), List.forall_mem_singleton.2 rfl⟩
      exact Prog.ensures_mono (silently_path hset hwork) fun _ _ ⟨_, h⟩ => h
  | clearScreen =>
      have hclear : c.clearScreen.unreported.Ensures hw.observed fuel s fun c' s' =>
          ∃ as, Path hw fuel (c, s) as (c', s') ∧ ∀ a ∈ as, a = .work :=
        fun _ _ hrun => ⟨[.work], .cons (.work .clearScreen hrun) (.nil _),
          List.forall_mem_singleton.2 rfl⟩
      exact Prog.ensures_mono (silently_path hclear hwork) fun _ _ ⟨_, h⟩ => h
  | input =>
      refine Prog.ensures_bind ?_
      refine Prog.ensures_mono (input_path c s) fun _ _ ⟨before, hpath, hnone, hbefore⟩ => ?_
      exact Prog.ensures_pure ⟨_, hpath, ⟨before, rfl, hnone⟩,
        List.forall_mem_append.2 ⟨hbefore, List.forall_mem_singleton.2 trivial⟩⟩
  | blockingRead =>
      refine Prog.ensures_bind ?_
      refine Prog.ensures_mono (blockingRead_path c s)
        fun v _ ⟨_, before, hpath, hnone, hbefore⟩ => ?_
      exact Prog.ensures_pure ⟨_, hpath, ⟨before, v.1, rfl, rfl, hnone⟩,
        List.forall_mem_append.2 ⟨hbefore, List.forall_mem_singleton.2 trivial⟩⟩
  | serialInterrupt =>
      refine Prog.ensures_bind (Prog.ensures_unreported ?_)
      refine Prog.ensures_mono (serialInterrupt_path c s.1 s.2) fun _ _ ⟨as, hpath, has⟩ => ?_
      refine Prog.ensures_pure ⟨as, hpath, delivered_eq_nil fun a ha byte? => ?_, has⟩
      obtain ⟨_, rfl⟩ := has a ha
      exact nofun
  | keyboardInterrupt =>
      refine Prog.ensures_mono (silently_path (keyboardInterrupt_path c s) fun a byte? ha => ?_)
        fun _ _ ⟨_, h⟩ => h
      obtain ⟨_, rfl⟩ := ha
      exact nofun
  | readLine prompt buffer =>
      refine Prog.ensures_bind ?_
      refine Prog.ensures_mono (readLine_path c prompt buffer s) fun _ _ ⟨as, h⟩ => ?_
      exact Prog.ensures_pure ⟨as, h⟩

/-- The answers of several commands, each given along its own part of a path, along which the
    command does nothing but what it can. -/
inductive AnswersAll : List Command → List Answer → List Action → Prop
  | nil : AnswersAll [] [] []
  | cons {command : Command} {answer : Answer} {as bs : List Action} {commands : List Command}
      {answers : List Answer} (does : ∀ a ∈ as, command.Does a) :
      Answers command answer as → AnswersAll commands answers bs →
      AnswersAll (command :: commands) (answer :: answers) (as ++ bs)

theorem performAll_path (commands : List Command) (c : Console)
    (s : (σ × List Event) × List Record) :
    (c.performAll commands).Ensures hw.observed fuel s fun v s' =>
      ∃ as, Path hw fuel (c, s) as (v.2, s') ∧ AnswersAll commands v.1 as := by
  induction commands generalizing c s with
  | nil => exact Prog.ensures_pure ⟨[], .nil _, .nil⟩
  | cons command rest ih =>
      refine Prog.ensures_bind ?_
      refine Prog.ensures_mono (perform_path c command s)
        fun v s₁ ⟨as, hfirst, hanswer, hdoes⟩ => ?_
      refine Prog.ensures_bind ?_
      refine Prog.ensures_mono (ih v.2 s₁) fun vs s₂ ⟨bs, hrest, hanswers⟩ => ?_
      exact Prog.ensures_pure ⟨_, hfirst.append hrest, .cons hdoes hanswer hanswers⟩

end Console

end KernelConsole
