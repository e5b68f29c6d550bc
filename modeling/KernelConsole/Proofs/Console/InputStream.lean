import KernelConsole.Proofs.Console.Arrivals
import KernelConsole.Proofs.Console.Steps
import KernelConsole.Proofs.Drivers
import KernelConsole.Proofs.Queue

/-!
# The Input Stream

What a reader of the console gets, over a whole run. The bytes that are queued
form a stream, and at every point the unread ones are the end of it, at most 512
long. A byte that is taken is the first unread one. A byte is lost only to one
that is queued while 512 are unread, and it is then the oldest.

The stream is told by the registers. Whatever is read from a receive register is in it
unless it is zero, however it came to be read, but for the byte that programming the
serial port clears away. So a driver that read a byte and lost it would not keep the
invariant.

The keyboard's part of the stream is what the decoder makes of all its scan codes
since the machine was switched on. A prefix that ends one look at the keyboard
still belongs to the scan code that begins the next, and neither output nor the
serial port comes between them.

## Main definitions

* `Access.Brings`: The accesses that bring in bytes of some devices only.
* `Console.Tracks`: The invariant of a point of a run.
* `Console.Effect`: What a leg does to the unread bytes.

## Theorems

* `Prog.Only.brings`: What a program brings in that reads some devices only.
* `Uart.tryReceive_brings`, `Keyboard.poll_brings`: What the devices bring in.
* `Console.Leads.brings`: What comes in during a leg.
* `Console.Leads.tracks`, `Console.Route.tracks`: Every leg keeps the invariant, and
  does one of four things to the unread bytes.
* `Console.input_stream`: All of it, for every run.
-/

namespace KernelConsole

open Prog

variable {σ : Type} {hw : Handler Hardware σ} {fuel : Nat}

theorem ensures_readReg {α : Type} {r : Register} {f : UInt8 → Io α} {s : σ}
    {events : List Event} {Q : α → σ × List Event → Prop}
    (hnext : ∀ v s', (f v).Ensures hw.recorded fuel (s', .regRead r v :: events) Q) :
    (readReg r >>= f).Ensures hw.recorded fuel (s, events) Q :=
  ensures_recorded (a := .readReg r) hnext

theorem ensures_readReg_unreported {α : Type} {r : Register} {f : UInt8 → LoggedIo α} {s : σ}
    {events : List Event} {records : List Record}
    {Q : α → (σ × List Event) × List Record → Prop}
    (hnext : ∀ v s', (f v).Ensures hw.observed fuel ((s', .regRead r v :: events), records) Q) :
    ((readReg r).unreported >>= f).Ensures hw.observed fuel ((s, events), records) Q :=
  ensures_observed (a := .readReg r) hnext

/-- The access brings in bytes of some devices only. -/
def Access.Brings (P : Source → Prop) : Access → Prop
  | .readReg (.uart _ .receive) => P .serial
  | .readReg (.keyboardData _) => P .keyboard
  | _ => True

/-- Where an access can only bring in bytes of some devices, its event does. -/
theorem Access.Brings.source {P : Source → Prop} {a : Access} (ha : a.Brings P) (v : a.Reply) :
    ∀ b ∈ (Event.of a v).arrival?.toList, P b.1 := by
  intro b hb
  rw [Option.mem_toList] at hb
  cases a with
  | readReg r =>
      cases r with
      | uart base r =>
          cases r with
          | receive =>
              cases hb
              exact ha
          | _ => exact nomatch hb
      | keyboardData port =>
          cases hb
          exact ha
      | _ => exact nomatch hb
  | _ => exact nomatch hb

/-- What comes in while a program runs that reads some devices only. -/
theorem Prog.Only.brings {α : Type} {P : Source → Prop} {p : LoggedIo α}
    (hp : p.Only (Reporting.Within (Access.Brings P))) (s : (σ × List Event) × List Record) :
    p.Ensures hw.observed fuel s fun _ s' =>
      ∃ new, arrivalsIn s'.1.2 = arrivalsIn s.1.2 ++ new ∧ ∀ b ∈ new, P b.1 := by
  refine Only.ensures (K := fun t : (σ × List Event) × List Record =>
    ∃ new, arrivalsIn t.1.2 = arrivalsIn s.1.2 ++ new ∧ ∀ b ∈ new, P b.1) ?_ hp
    ⟨[], (List.append_nil _).symm, nofun⟩
  -- One access adds the byte of its event, if that has one, and a report adds none.
  rintro r hr t ⟨new, hnew, hfrom⟩ v t' hreply
  cases r with
  | access a =>
      rcases bind_eq_ok.1 hreply with ⟨w, hrecorded, hw'⟩
      rcases bind_eq_ok.1 hrecorded with ⟨u, _, hu⟩
      cases hu
      cases hw'
      refine ⟨new ++ (Event.of a u.1).arrival?.toList, ?_, ?_⟩
      · rw [← List.append_assoc, ← hnew]
        exact arrivalsIn_cons _ _
      · exact List.forall_mem_append.2 ⟨hfrom, Access.Brings.source hr u.1⟩
  | report _ =>
      cases hreply
      exact ⟨new, hnew, hfrom⟩

/-- Where no device is read, nothing comes in. -/
theorem Prog.Only.silent {α : Type} {p : LoggedIo α}
    (hp : p.Only (Reporting.Within (Access.Brings fun _ => False)))
    (s : (σ × List Event) × List Record) :
    p.Ensures hw.observed fuel s fun _ s' => arrivalsIn s'.1.2 = arrivalsIn s.1.2 := by
  refine ensures_mono (hp.brings s) fun _ s' ⟨new, hnew, hnone⟩ => ?_
  rw [hnew, List.eq_nil_iff_forall_not_mem.2 hnone, List.append_nil]

theorem brings_writes (P : Source → Prop) : Writes (Access.Brings P) := by
  constructor <;> intros <;> trivial

/-- A look at a serial port gives all that it reads from the receive register. -/
theorem Uart.tryReceive_brings (u : Uart) (s : σ × List Event) :
    u.tryReceive.Ensures hw.recorded fuel s fun byte? s' =>
      arrivalsIn s'.2 = arrivalsIn s.2 ++ byte?.toList.map (Prod.mk .serial) := by
  unfold tryReceive
  refine ensures_readReg fun status s₁ => ?_
  have hasked : arrivalsIn (.regRead (u.reg .lineStatus) status :: s.2) = arrivalsIn s.2 :=
    (arrivalsIn_cons _ _).trans (List.append_nil _)
  by_cases hwaiting : status &&& Uart.received = 0
  · rw [if_pos hwaiting]
    exact ensures_pure (hasked.trans (List.append_nil _).symm)
  · rw [if_neg hwaiting]
    refine ensures_readReg fun byte s₂ => ensures_pure ?_
    rw [arrivalsIn_cons, hasked]
    rfl

/-- What a scan code means does not hang on the hardware, and a reset of the
    machine brings in nothing. -/
theorem Keyboard.handle_brings (k : Keyboard) (scancode : UInt8)
    (s : (σ × List Event) × List Record) :
    (k.handle scancode).Ensures hw.observed fuel s fun v s' =>
      v.1 = (k.decoder.feed scancode).1 ∧
        v.2.decoder.modifiers = (k.decoder.feed scancode).2.modifiers ∧
        arrivalsIn s'.1.2 = arrivalsIn s.1.2 := by
  have hsilent : (k.handle scancode).Ensures hw.observed fuel s fun _ s' =>
      arrivalsIn s'.1.2 = arrivalsIn s.1.2 :=
    (k.handle_only (H := fun _ => True) (fun _ => trivial) scancode).silent s
  -- Whether the machine is reset makes no difference to what is returned.
  have hmeaning : (k.handle scancode).Ensures hw.observed fuel s fun v _ =>
      v.1 = (k.decoder.feed scancode).1 ∧
        v.2.decoder.modifiers = (k.decoder.feed scancode).2.modifiers := by
    unfold handle
    by_cases hreset : (k.decoder.feed scancode).2.takeReset.1 = true
    · simp only [if_pos hreset]
      exact ensures_bind fun _ _ _ => ensures_bind fun _ _ _ => ensures_pure ⟨rfl, rfl⟩
    · simp only [if_neg hreset]
      exact ensures_pure ⟨rfl, rfl⟩
  exact ensures_mono (ensures_and hmeaning hsilent) fun _ _ h => ⟨h.1.1, h.1.2, h.2⟩

/-- A look at a keyboard brings in nothing, or a scan code that goes through its
    decoder. -/
theorem Keyboard.poll_brings (k : Keyboard) (s : (σ × List Event) × List Record) :
    k.poll.Ensures hw.observed fuel s fun v s' =>
      (v = (none, k) ∧ arrivalsIn s'.1.2 = arrivalsIn s.1.2) ∨
        ∃ scancode, arrivalsIn s'.1.2 = arrivalsIn s.1.2 ++ [(.keyboard, scancode)] ∧
          v.1 = some (k.decoder.feed scancode).1 ∧
          v.2.decoder.modifiers = (k.decoder.feed scancode).2.modifiers := by
  unfold poll
  refine ensures_readReg_unreported fun status s₁ => ?_
  have hquiet : arrivalsIn (.regRead (.keyboardStatus k.statusPort) status :: s.1.2) =
      arrivalsIn s.1.2 := (arrivalsIn_cons _ _).trans (List.append_nil _)
  by_cases hwaiting : status &&& waiting = 0
  · simp only [if_pos hwaiting]
    exact ensures_pure (Or.inl ⟨rfl, hquiet⟩)
  · simp only [if_neg hwaiting]
    refine ensures_readReg_unreported fun scancode s₂ => ?_
    refine ensures_bind (ensures_mono (k.handle_brings scancode _) fun v s₃ hhandle => ?_)
    rcases hhandle with ⟨hevent, hmodifiers, hscanned⟩
    refine ensures_pure (Or.inr ⟨scancode, ?_, congrArg some hevent, hmodifiers⟩)
    rw [hscanned, arrivalsIn_cons, hquiet]
    rfl

namespace Console

/-- Work leaves the queue and the keyboard alone. -/
theorem Work.kept {c : Console} {p : LoggedIo Console} (hp : Work c p)
    (s : (σ × List Event) × List Record) :
    p.Ensures hw.observed fuel s fun c' _ => c'.queue = c.queue ∧ c'.keyboard = c.keyboard := by
  cases hp with
  | startScreen => exact ensures_bind fun _ _ _ => ensures_pure ⟨rfl, rfl⟩
  | report level target message => exact ensures_bind fun _ _ _ => ensures_pure ⟨rfl, rfl⟩
  | output byte =>
      exact ensures_unreported <| ensures_bind fun _ _ _ => ensures_bind fun _ _ _ =>
        ensures_bind fun _ _ _ => ensures_pure ⟨rfl, rfl⟩
  | setColor foreground background => exact ensures_pure ⟨rfl, rfl⟩
  | clearScreen => exact ensures_unreported <| ensures_bind fun _ _ _ => ensures_pure ⟨rfl, rfl⟩

/-- Work reads no input device. -/
theorem Work.only {c : Console} {p : LoggedIo Console} (hp : Work c p) :
    p.Only (Reporting.Within (Access.Brings fun _ => False)) := by
  cases hp with
  | startScreen =>
      refine Only.bind (Screen.init_only ?_ ?_ ?_ ?_ _) fun _ => Only.pure
      all_goals intros; trivial
  | report level target message => exact Only.bind (report_only _ _ _) fun _ => Only.pure
  | output byte => exact (output_only (brings_writes _) c byte).unreported
  | setColor foreground background => exact Only.pure
  | clearScreen => exact (clearScreen_only (brings_writes _) c).unreported

/-- The byte that a look at the serial port gave. -/
def Action.received : Action → List UInt8
  | .receive byte? => byte?.toList
  | _ => []

/-- A look at the serial port brings in what it gives, and nothing else. -/
theorem Leads.received {p q : Point σ} {byte? : Option UInt8} {events : List Event}
    (h : Leads hw fuel p ⟨.receive byte?, events⟩ q) :
    arrivalsIn events = byte?.toList.map (Prod.mk .serial) := by
  rcases h with ⟨hstep, hevents⟩
  cases hstep with
  | @receive c s s' records byte? present run =>
      have hbrought : arrivalsIn s'.2 = arrivalsIn s.2 ++ byte?.toList.map (Prod.mk .serial) :=
        Uart.tryReceive_brings c.uart s byte? s' run
      have hseen : s'.2 = events ++ s.2 := hevents
      rw [hseen, arrivalsIn_append] at hbrought
      exact List.append_cancel_left hbrought

/-- A look at the keyboard brings in nothing, or the scan code whose meaning it gives. -/
theorem Leads.scanned {p q : Point σ} {event? : Option KeyEvent} {events : List Event}
    (h : Leads hw fuel p ⟨.scan event?, events⟩ q) :
    event? = none ∧ arrivalsIn events = [] ∧ q.1 = p.1 ∨
      ∃ scancode keyboard, event? = some (p.1.keyboard.decoder.feed scancode).1 ∧
        arrivalsIn events = [(.keyboard, scancode)] ∧
        keyboard.decoder.modifiers = (p.1.keyboard.decoder.feed scancode).2.modifiers ∧
        q.1 = ({ p.1 with keyboard } : Console).enqueueEvent
          (p.1.keyboard.decoder.feed scancode).1 := by
  rcases h with ⟨hstep, hevents⟩
  cases hstep with
  | @scan c s s' event? keyboard run =>
      have hseen : s'.1.2 = events ++ s.1.2 := hevents
      rcases Keyboard.poll_brings c.keyboard s (event?, keyboard) s' run with
        ⟨hnone, hbrought⟩ | ⟨scancode, hbrought, hevent, hmodifiers⟩
      -- The events of the leg are what was added to those before it.
      all_goals rw [hseen, arrivalsIn_append] at hbrought
      · cases hnone
        exact .inl ⟨rfl, List.append_right_eq_self.1 hbrought, rfl⟩
      · obtain rfl : event? = some (c.keyboard.decoder.feed scancode).1 := hevent
        exact .inr ⟨scancode, keyboard, rfl, List.append_cancel_left hbrought, hmodifiers, rfl⟩

/-- Taking a byte and work bring in nothing. -/
theorem Leads.silent {p q : Point σ} {leg : Leg} (h : Leads hw fuel p leg q)
    (ha : leg.action = .work ∨ ∃ byte?, leg.action = .take byte?) : leg.arrivals = [] := by
  rcases leg with ⟨a, events⟩
  rcases h with ⟨hstep, hevents⟩
  rcases ha with rfl | ⟨byte?, rfl⟩
  · cases hstep with
    | @work c c' s s' _ isWork run =>
        have hsame : arrivalsIn s'.1.2 = arrivalsIn s.1.2 :=
          Prog.Only.silent isWork.only s c' s' run
        have hseen : s'.1.2 = events ++ s.1.2 := hevents
        rw [hseen, arrivalsIn_append] at hsame
        exact List.append_right_eq_self.1 hsame
  · -- The queue is no device, so nothing was seen at all.
    cases hstep with
    | take => exact congrArg arrivalsIn (List.self_eq_append_left.1 hevents)

/-- What comes in during a leg, device by device: of the keyboard all scan codes that were
    read, and of the serial port what its look gave. -/
theorem Leads.brings {p q : Point σ} {leg : Leg} (h : Leads hw fuel p leg q) :
    bytesFrom .keyboard leg.arrivals = bytesFrom .keyboard (arrivalsIn leg.events) ∧
      bytesFrom .serial leg.arrivals = leg.action.received := by
  have hleads := h
  rcases leg with ⟨a, events⟩
  cases a with
  | receive byte? =>
      refine ⟨rfl, (congrArg (bytesFrom .serial) h.received).trans ?_⟩
      cases byte? <;> rfl
  | scan event? =>
      refine ⟨rfl, ?_⟩
      rcases h.scanned with ⟨_, hnone, _⟩ | ⟨scancode, _, _, hone, _⟩
      · exact congrArg (bytesFrom .serial) hnone
      · exact congrArg (bytesFrom .serial) hone
  | take byte? => exact ⟨rfl, congrArg (bytesFrom .serial) (h.silent (.inr ⟨byte?, rfl⟩))⟩
  | work => exact ⟨rfl, congrArg (bytesFrom .serial) (h.silent (.inl rfl))⟩
  | program =>
      refine ⟨Eq.symm ?_, rfl⟩
      rcases h with ⟨hstep, hevents⟩
      cases hstep with
      | @program c s s' uart run =>
          -- Programming the serial port may read it, but does not read the keyboard.
          have honly : c.uart.init.unreported.Only
              (Reporting.Within (Access.Brings (· = .serial))) :=
            (Uart.init_only (fun _ _ _ => trivial) fun r => by cases r <;> trivial).unreported
          rcases honly.brings s uart s' run with ⟨new, hnew, hserial⟩
          have hseen : s'.1.2 = events ++ s.1.2 := hevents
          rw [hseen, arrivalsIn_append, List.append_cancel_left_eq] at hnew
          have hnone : ∀ b ∈ new, ¬decide (b.1 = Source.keyboard) = true := fun b hb =>
            (hserial b hb).symm ▸ nofun
          rw [hnew, bytesFrom, List.filter_eq_nil_iff.2 hnone]
          rfl

/-- Along a route that starts where nothing was seen yet, every scan code that was read
    came in, and of the serial port what its looks gave. -/
theorem Route.brings {p q : Point σ} {legs : List Leg} (h : Route hw fuel p legs q)
    (hp : p.events = []) :
    bytesFrom .keyboard (arrivals legs) = bytesFrom .keyboard (arrivalsIn q.events) ∧
      bytesFrom .serial (arrivals legs) = legs.flatMap (·.action.received) := by
  induction h with
  | nil =>
      rw [hp]
      exact ⟨rfl, rfl⟩
  | snoc _ hleads ih =>
      rcases ih with ⟨hkeyboard, hserial⟩
      rcases hleads.brings with ⟨hscanned, hreceived⟩
      rw [arrivals_snoc, bytesFrom_append, bytesFrom_append, hkeyboard, hserial, hscanned,
        hreceived, hleads.events, arrivalsIn_append, bytesFrom_append, List.flatMap_append,
        List.flatMap_singleton]
      exact ⟨rfl, rfl⟩

/-- The unread bytes at a point of a run, oldest first. -/
def Point.unread (p : Point σ) : List UInt8 := p.1.queue.contents

/-- What holds at every point of a run, given the legs that led there. -/
structure Tracks (legs : List Leg) (p : Point σ) : Prop where
  /-- The queue holds what it has room for. -/
  bounded : p.1.queue.Bounded
  /-- The decoder has seen every scan code since the machine was switched on. -/
  decoder : p.1.keyboard.decoder.modifiers = (decoderAfter legs).modifiers
  /-- The unread bytes are the end of the stream. -/
  unread : p.unread <:+ (enqueued legs).map Prod.snd

/-- What a leg does to the unread bytes and to the stream, which was `stream` before it
    and is `stream'` after it. -/
inductive Effect (stream stream' : List (Source × UInt8)) (p q : Point σ) : Action → Prop
  /-- The first unread byte is taken, and it is not zero. -/
  | taken (byte : UInt8) (first : p.unread = byte :: q.unread) (nonzero : byte ≠ 0)
      (same : stream' = stream) : Effect stream stream' p q (.take (some byte))
  /-- There is nothing to take. -/
  | missed (empty : p.unread = []) (still : q.unread = []) (same : stream' = stream) :
      Effect stream stream' p q (.take none)
  /-- A byte is queued. If 512 are unread the oldest of them is lost. -/
  | queued {a : Action} (source : Source) (byte : UInt8)
      (notTaken : ∀ byte?, a ≠ .take byte?)
      (last : stream' = stream ++ [(source, byte)])
      (kept : q.unread =
        (if p.unread.length = Ring.capacity then p.unread.tail else p.unread) ++ [byte]) :
      Effect stream stream' p q a
  /-- Nothing is queued and nothing lost. -/
  | quiet {a : Action} (notTaken : ∀ byte?, a ≠ .take byte?) (same : stream' = stream)
      (kept : q.unread = p.unread) : Effect stream stream' p q a

theorem Tracks.ne_zero {legs : List Leg} {p : Point σ} (hp : Tracks legs p) {byte : UInt8}
    (hbyte : byte ∈ p.unread) : byte ≠ 0 := by
  rcases List.mem_map.1 (hp.unread.subset hbyte) with ⟨b, hb, rfl⟩
  exact queuedBy_ne_zero _ _ b hb

/-- The unread bytes after a byte is queued, or none. -/
theorem Tracks.arrived {legs : List Leg} {leg : Leg} {p q : Point σ} (hp : Tracks legs p)
    (source : Source) (byte? : Option UInt8)
    (hqueue : q.1.queue = byte?.elim p.1.queue p.1.queue.push)
    (hdecoder : q.1.keyboard.decoder.modifiers = (decoderAfter (legs ++ [leg])).modifiers)
    (hqueued : queuedBy (decoderAfter legs) leg.arrivals = byte?.toList.map (Prod.mk source))
    (ha : ∀ byte?, leg.action ≠ .take byte?) :
    Tracks (legs ++ [leg]) q ∧
      Effect (enqueued legs) (enqueued (legs ++ [leg])) p q leg.action := by
  have hstream := enqueued_snoc legs leg
  rw [hqueued] at hstream
  -- Either the queue has one byte more and so has the stream, or neither has.
  cases byte? with
  | none =>
      rw [Option.toList_none, List.map_nil, List.append_nil] at hstream
      have hkept : q.unread = p.unread := congrArg Ring.contents hqueue
      refine ⟨⟨?_, hdecoder, ?_⟩, .quiet ha hstream hkept⟩
      · rw [hqueue]
        exact hp.bounded
      · rw [hkept, hstream]
        exact hp.unread
  | some byte =>
      have hkept : q.unread =
          (if p.unread.length = Ring.capacity then p.unread.tail else p.unread) ++ [byte] := by
        rw [Point.unread, hqueue, Option.elim_some,
          Ring.contents_push Ring.wideEnough_word hp.bounded, Point.unread, Ring.length_contents]
      refine ⟨⟨?_, hdecoder, ?_⟩, .queued source byte ha hstream hkept⟩
      · rw [hqueue]
        exact Ring.bounded_push Ring.wideEnough_word hp.bounded byte
      · rw [hkept, hstream, List.map_append]
        refine List.suffix_append_self_iff.2 ?_
        by_cases hfull : p.unread.length = Ring.capacity
        · -- the oldest byte is lost, and what is left is still the end of the stream
          rw [if_pos hfull]
          exact (List.tail_suffix _).trans hp.unread
        · rw [if_neg hfull]
          exact hp.unread

/-- A leg that brings in nothing and leaves the queue and the decoder alone. -/
theorem Tracks.quiet {legs : List Leg} {leg : Leg} {p q : Point σ} (hp : Tracks legs p)
    (hqueue : q.1.queue = p.1.queue) (hkeyboard : q.1.keyboard = p.1.keyboard)
    (harrivals : leg.arrivals = []) (ha : ∀ byte?, leg.action ≠ .take byte?) :
    Tracks (legs ++ [leg]) q ∧
      Effect (enqueued legs) (enqueued (legs ++ [leg])) p q leg.action := by
  refine hp.arrived .serial none hqueue ?_ ?_ ha
  · rw [hkeyboard, decoderAfter_snoc, harrivals]
    exact hp.decoder
  · rw [harrivals]
    rfl

theorem enqueueEvent_eq (c : Console) {event : KeyEvent} (hzero : event.byte? ≠ some 0) :
    (c.enqueueEvent event).queue = event.byte?.elim c.queue c.queue.push ∧
      (c.enqueueEvent event).keyboard = c.keyboard := by
  unfold enqueueEvent
  cases hbyte : event.byte? with
  | none => exact ⟨rfl, rfl⟩
  | some byte =>
      have hne : byte ≠ 0 := fun h => hzero (h ▸ hbyte)
      simp only [enqueue, if_neg hne, Option.elim_some, and_self]

/-- A look at the serial port queues the byte it gives, unless that is zero. -/
theorem Tracks.received {legs : List Leg} {p q : Point σ} {byte? : Option UInt8}
    {events : List Event} (hp : Tracks legs p)
    (hleads : Leads hw fuel p ⟨.receive byte?, events⟩ q) :
    Tracks (legs ++ [⟨.receive byte?, events⟩]) q ∧
      Effect (enqueued legs) (enqueued (legs ++ [⟨.receive byte?, events⟩])) p q
        (.receive byte?) := by
  have harrivals : (⟨.receive byte?, events⟩ : Leg).arrivals =
      byte?.toList.map (Prod.mk Source.serial) := hleads.received
  -- The decoder does not hear of a serial byte.
  have hdecoder : decoderAfter (legs ++ [⟨.receive byte?, events⟩]) = decoderAfter legs := by
    rw [decoderAfter_snoc, harrivals]
    cases byte? <;> rfl
  cases hleads.step with
  | @receive c s s' records byte? present run =>
      cases byte? with
      | none => exact hp.quiet rfl rfl harrivals nofun
      | some byte =>
          by_cases hzero : byte = 0
          · -- Zero comes in, but it is not queued.
            have hsame : c.enqueue byte = c := if_pos hzero
            refine hp.arrived (q := (c.enqueue byte, s', records)) .serial none
              (congrArg Console.queue hsame) ?_ ?_ nofun
            · rw [hsame, hdecoder]
              exact hp.decoder
            · rw [harrivals]
              exact List.append_eq_nil_iff.2 ⟨if_pos hzero, rfl⟩
          · have hpush : c.enqueue byte = { c with queue := c.queue.push byte } := if_neg hzero
            refine hp.arrived (q := (c.enqueue byte, s', records)) .serial (some byte)
              (congrArg Console.queue hpush) ?_ ?_ nofun
            · rw [hpush, hdecoder]
              exact hp.decoder
            · rw [harrivals]
              exact congrArg (· ++ []) (if_neg hzero)

/-- A look at the keyboard queues the byte of the event that the scan code makes. -/
theorem Tracks.scanned {legs : List Leg} {p q : Point σ} {event? : Option KeyEvent}
    {events : List Event} (hp : Tracks legs p)
    (hleads : Leads hw fuel p ⟨.scan event?, events⟩ q) :
    Tracks (legs ++ [⟨.scan event?, events⟩]) q ∧
      Effect (enqueued legs) (enqueued (legs ++ [⟨.scan event?, events⟩])) p q
        (.scan event?) := by
  rcases hleads.scanned with
    ⟨_, harrivals, hsame⟩ | ⟨scancode, keyboard, rfl, harrivals, hmodifiers, hq⟩
  · exact hp.quiet (congrArg queue hsame) (congrArg Console.keyboard hsame) harrivals nofun
  · -- The decoder has seen the same scan codes as the one that reads the stream.
    obtain ⟨hmeaning, hnext⟩ := Decoder.feed_congr hp.decoder scancode
    obtain ⟨hqueue, hkeyboard⟩ := enqueueEvent_eq { p.1 with keyboard }
      (p.1.keyboard.decoder.byte?_feed_ne_zero scancode)
    have hcame : (⟨.scan (some (p.1.keyboard.decoder.feed scancode).1), events⟩ : Leg).arrivals =
      [(.keyboard, scancode)] := harrivals
    refine hp.arrived .keyboard (p.1.keyboard.decoder.feed scancode).1.byte? ?_ ?_ ?_ nofun
    · rw [hq]
      exact hqueue
    · rw [hq, hkeyboard, decoderAfter_snoc, hcame]
      exact hmodifiers.trans hnext
    · rw [hcame, queuedBy, ← hmeaning, queuedBy, List.append_nil]

/-- Every leg keeps the invariant, and its effect on the unread bytes is one of
    four. -/
theorem Leads.tracks {legs : List Leg} {p q : Point σ} {leg : Leg}
    (hleads : Leads hw fuel p leg q) (hp : Tracks legs p) :
    Tracks (legs ++ [leg]) q ∧
      Effect (enqueued legs) (enqueued (legs ++ [leg])) p q leg.action := by
  rcases leg with ⟨a, events⟩
  cases a with
  | receive byte? => exact hp.received hleads
  | scan event? => exact hp.scanned hleads
  | take byte? =>
      have harrivals := hleads.silent (.inr ⟨byte?, rfl⟩)
      have hstream : enqueued (legs ++ [⟨.take byte?, events⟩]) = enqueued legs := by
        rw [enqueued_snoc, harrivals]
        exact List.append_nil _
      have hdecoder : decoderAfter (legs ++ [⟨.take byte?, events⟩]) = decoderAfter legs := by
        rw [decoderAfter_snoc, harrivals]
        rfl
      cases hleads.step with
      | @take c s =>
          rcases Ring.contents_pop Ring.wideEnough_word hp.bounded with
            ⟨hempty, hpop⟩ | ⟨byte, hpop, hcons⟩
          · rw [hpop] at hstream hdecoder ⊢
            refine ⟨⟨hp.bounded, hdecoder ▸ hp.decoder, ?_⟩, .missed hempty hempty hstream⟩
            rw [hstream]
            exact hp.unread
          · -- Whatever is unread is part of the stream, and zeros never get there.
            have hbyte : byte ≠ 0 := by
              refine hp.ne_zero ?_
              rw [Point.unread, hcons]
              exact List.mem_cons_self
            rw [hpop] at hstream hdecoder ⊢
            refine ⟨⟨?_, hdecoder ▸ hp.decoder, ?_⟩, .taken byte hcons hbyte hstream⟩
            · exact Ring.bounded_pop Ring.wideEnough_word hp.bounded
            · have hunread := hp.unread
              rw [Point.unread, hcons] at hunread
              rw [hstream]
              exact (List.suffix_cons _ _).trans hunread
  | program =>
      -- The byte that is cleared away did not come in.
      cases hleads.step with
      | program run => exact hp.quiet rfl rfl rfl nofun
  | work =>
      have harrivals := hleads.silent (.inl rfl)
      cases hleads.step with
      | @work c c' s s' _ isWork run =>
          rcases isWork.kept s c' s' run with ⟨hqueue, hkeyboard⟩
          exact hp.quiet (q := (c', s')) hqueue hkeyboard harrivals nofun

theorem Route.tracks {p q : Point σ} {legs : List Leg} (hroute : Route hw fuel p legs q)
    (hp : Tracks [] p) : Tracks legs q := by
  induction hroute with
  | nil => exact hp
  | snoc _ hleads ih => exact (hleads.tracks ih).1

/-- A console that was just made has nothing queued and no key held. -/
theorem tracks_ofSettings {settings : Settings} {c : Console} (m : σ)
    (hsettings : Console.ofSettings settings = .ok c) : Tracks [] (c, (m, []), []) := by
  rcases Console.ofSettings_eq_ok hsettings with ⟨_, _, _, rfl⟩
  refine ⟨Ring.bounded_empty, rfl, ?_⟩
  rw [Point.unread, Ring.contents_empty]
  exact List.nil_suffix

/-- A run of a console, on any hardware, is a route of legs along which the answers are
    given and each command does only what it can, so the serial port is programmed, and a
    byte of it thrown away, only to bring up the console. What is queued along a route is,
    of the serial port, all that was read from its receive register but while it was
    programmed, without the zeros, and of the keyboard the bytes of what the decoder makes
    of all that was read from its data register. At every point that a route leads to:
    the unread bytes are the end of this stream, at most 512 long;
    the keyboard's part of the stream is what all scan codes mean that were read since the
    machine was switched on, and the serial port's part is what its looks gave, without
    the zeros;
    and the next leg takes the first unread byte, which is not zero, or queues a
    byte, which costs the oldest unread one if there are 512, or changes
    nothing. -/
theorem input_stream {settings : Settings} {c₀ c : Console} {m : σ} {commands : List Command}
    {answers : List Answer} {s : (σ × List Event) × List Record}
    (hsettings : Console.ofSettings settings = .ok c₀)
    (hrun : (c₀.performAll commands).run hw.observed fuel ((m, []), []) =
      .ok ((answers, c), s)) :
    (∃ legs, Route hw fuel (c₀, (m, []), []) legs (c, s) ∧
        AnswersAll commands answers (legs.map Leg.action)) ∧
      ∀ legs p, Route hw fuel (c₀, (m, []), []) legs p →
        p.unread <:+ (enqueued legs).map Prod.snd ∧
        p.unread.length ≤ Ring.capacity ∧
        bytesFrom .keyboard (enqueued legs) = keysIn p.events ∧
        bytesFrom .serial (enqueued legs) =
          (legs.flatMap (·.action.received)).filter (· ≠ 0) ∧
        ∀ leg q, Leads hw fuel p leg q →
          Effect (enqueued legs) (enqueued (legs ++ [leg])) p q leg.action := by
  refine ⟨?_, fun legs p hroute => ?_⟩
  · rcases performAll_path commands c₀ _ (answers, c) s hrun with ⟨as, hpath, hanswers⟩
    rcases hpath.exists_route (.nil _) with ⟨legs, hroute, has⟩
    exact ⟨legs, hroute, has.symm ▸ hanswers⟩
  -- The invariant at the point says what is unread, and the events say what the stream is made
  -- of.
  · have hp := hroute.tracks (tracks_ofSettings m hsettings)
    obtain ⟨hkeyboard, hserial⟩ := hroute.brings rfl
    refine ⟨hp.unread, ?_, ?_, ?_, fun leg q hleads => (hleads.tracks hp).2⟩
    · rw [Point.unread, Ring.length_contents]
      exact hp.bounded
    · rw [enqueued, queuedBy_keyboard, hkeyboard]
      rfl
    · rw [enqueued, queuedBy_serial, hserial]

/-- Hardware whose registers read as given bytes, one after the other, and then
    as zero. Cells read as zero. -/
def replayed : Bus (List UInt8)
  | .readReg _, script => (script.headD 0, script.tail)
  | .writeReg _ _, script => ((), script)
  | .readCell _, script => (0, script)
  | .writeCell _ _, script => ((), script)

/-- A key that waits while the console is brought up and a byte that the serial
    port brings in later. Each is the answer of one call, in this order. -/
theorem input_stream_key_and_serial :
    ∃ c₀ c s legs,
      Console.ofSettings {} = .ok c₀ ∧
        (c₀.performAll [.init, .input, .input]).run replayed.handler.observed 8
            (([0, 0, 1, 0x1E, 0, 0x60, 0, 0x63, 1, 0x62], []), []) =
          .ok (([.nothing, .byte (some 0x61), .byte (some 0x62)], c), s) ∧
        Route replayed.handler 8 (c₀, ([0, 0, 1, 0x1E, 0, 0x60, 0, 0x63, 1, 0x62], []), []) legs
          (c, s) ∧
        AnswersAll [.init, .input, .input] [.nothing, .byte (some 0x61), .byte (some 0x62)]
          (legs.map Leg.action) ∧
        bytesFrom .keyboard (enqueued legs) = [0x61] ∧
        Point.unread (c, s) <:+ (enqueued legs).map Prod.snd := by
  have hends : ((Console.ofSettings {}).bind fun c₀ => .ok
      (((c₀.performAll [.init, .input, .input]).run replayed.handler.observed 8
        (([0, 0, 1, 0x1E, 0, 0x60, 0, 0x63, 1, 0x62], []), [])).toOption.map fun v =>
          (v.1.1, keysIn v.2.1.2))) =
      .ok (some ([.nothing, .byte (some 0x61), .byte (some 0x62)], [0x61])) := by
    decide +kernel
  rcases bind_eq_ok.1 hends with ⟨c₀, hsettings, hsome⟩
  rcases Option.map_eq_some_iff.1 (Except.ok.inj hsome) with ⟨⟨⟨answers, c⟩, s⟩, hrun, hvalues⟩
  obtain ⟨rfl, hkeys⟩ := Prod.mk.inj hvalues
  have hok := eq_ok_of_toOption hrun
  rcases input_stream hsettings hok with ⟨⟨legs, hroute, hanswers⟩, hpoints⟩
  obtain ⟨hunread, _, hkeyboard, _⟩ := hpoints legs _ hroute
  exact ⟨c₀, c, s, legs, hsettings, hok, hroute, hanswers, hkeyboard.trans hkeys, hunread⟩

end Console

end KernelConsole
