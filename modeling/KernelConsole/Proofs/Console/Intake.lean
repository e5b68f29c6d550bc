import KernelConsole.Proofs.BoundedQueue
import KernelConsole.Proofs.Console.Arrivals
import KernelConsole.Proofs.Console.Draining
import KernelConsole.Proofs.Console.FanOut

/-!
# What Comes In with a Look

A look at the input devices as a few lines on lists. The bytes of the serial port come
first, without the zeros, and then those of the keys. They follow what is unread, the
newest 512 of all this stay, and the first of those is taken.

A flood of keys can so drop bytes of the serial port that came in with the same look, and
both can drop bytes that were unread before.

## Main definitions

* `Decoder.keyBytes`: The bytes that scan codes bring.
* `Decoder.after`: The decoder after scan codes.
* `Console.intake`, `Console.unreadAfter`: The bytes that a look brings, and what is unread then.

## Theorems

* `Decoder.feedAll_congr`: The decoder looks at nothing but the modifiers.
* `Console.receiveAll_pushes`, `Console.typeAll_pushes`: One device.
* `Console.look_pushes`: Both devices.
* `Bench.count_status_drainReads`, `Console.count_status_serialReads`: How often a status is read.
* `Console.input_takes`, `Console.input_empties_devices`: Taking a byte.
* `Console.unreadAfter_of_emptied`: A look that brings nothing.
* `Console.inputs_take_all`: Taking bytes until there is none.
-/

namespace KernelConsole

open Prog

namespace Decoder

/-- The bytes that scan codes bring. -/
def keyBytes (d : Decoder) (scancodes : List UInt8) : List UInt8 :=
  (d.feedAll scancodes).1.filterMap KeyEvent.byte?

/-- The decoder after scan codes. A reset that one of them asks for is done with at once. -/
def after (d : Decoder) (scancodes : List UInt8) : Decoder where
  modifiers := (d.feedAll scancodes).2.modifiers
  resetRequested := d.resetRequested && scancodes.isEmpty

/-- The decoder looks at nothing but the modifiers. -/
theorem feedAll_congr {d e : Decoder} (h : d.modifiers = e.modifiers) (scancodes : List UInt8) :
    (d.feedAll scancodes).1 = (e.feedAll scancodes).1 ∧
      (d.feedAll scancodes).2.modifiers = (e.feedAll scancodes).2.modifiers := by
  induction scancodes generalizing d e with
  | nil => exact ⟨rfl, h⟩
  | cons scancode rest ih =>
      rcases feed_congr h scancode with ⟨hevent, hmodifiers⟩
      rcases ih hmodifiers with ⟨hevents, hlast⟩
      simp only [feedAll, hevent, hevents, hlast, and_self]

theorem after_nil (d : Decoder) : d.after [] = d := by
  simp only [after, feedAll, List.isEmpty_nil, Bool.and_true]

/-- What a scan code asked for does not matter to the next ones. -/
theorem after_cons (d : Decoder) (scancode : UInt8) (rest : List UInt8) :
    d.after (scancode :: rest) = (d.feed scancode).2.takeReset.2.after rest := by
  have hrest := (feedAll_congr (d := (d.feed scancode).2)
    (e := (d.feed scancode).2.takeReset.2) rfl rest).2
  simp only [after, feedAll, hrest, takeReset, List.isEmpty_cons, Bool.and_false, Bool.false_and]

theorem keyBytes_cons (d : Decoder) (scancode : UInt8) (rest : List UInt8) :
    d.keyBytes (scancode :: rest) =
      (d.feed scancode).1.byte?.toList ++ (d.feed scancode).2.takeReset.2.keyBytes rest := by
  have hrest := (feedAll_congr (d := (d.feed scancode).2)
    (e := (d.feed scancode).2.takeReset.2) rfl rest).1
  simp only [keyBytes, feedAll, hrest]
  cases hbyte : (d.feed scancode).1.byte? with
  | none => exact List.filterMap_cons_none hbyte
  | some byte => exact List.filterMap_cons_some hbyte

end Decoder

/-- A pop takes the first byte, if there is one. -/
theorem BoundedQueue.pop_eq (q : List UInt8) : pop q = (q.head?, q.tail) := by
  cases q with
  | nil => rfl
  | cons byte rest => rfl

namespace Bench

variable {status data : UInt16}

/-- The status is read once more than there are bytes. -/
theorem count_status_drainReads (h : data ≠ status) (bytes : List UInt8) :
    (drainReads status data bytes).count status = bytes.length + 1 := by
  induction bytes with
  | nil => exact List.count_singleton_self
  | cons byte rest ih =>
      have hround : drainReads status data (byte :: rest) =
          status :: data :: drainReads status data rest := rfl
      rw [hround, List.count_cons_self, List.count_cons_of_ne h, ih, List.length_cons]

end Bench

namespace Console

/-- The bytes that a look at the input devices brings, those of the serial port first. -/
def intake (c : Console) (i : Bench.Inlet) : List UInt8 :=
  (if c.uart.present then i.received.filter (· ≠ 0) else []) ++
    c.keyboard.decoder.keyBytes i.scancodes

theorem receiveAll_pushes (c : Console) (bytes : List UInt8) :
    c.receiveAll bytes = { c with queue := c.queue.pushAll (bytes.filter (· ≠ 0)) } := by
  induction bytes generalizing c with
  | nil => rfl
  | cons byte rest ih =>
      have hone := enqueue_eq c byte
      refine (ih (c.enqueue byte)).trans ?_
      by_cases hzero : byte = 0
      · -- the filter leaves out what is not queued
        rw [if_pos hzero] at hone
        rw [hone, List.filter_cons_of_neg (by simpa using hzero)]
      · rw [if_neg hzero] at hone
        rw [hone, List.filter_cons_of_pos (by simpa using hzero)]
        rfl

/-- The byte of an event is never zero, so it is queued if there is one. -/
theorem typed_pushes (c : Console) (scancode : UInt8) :
    c.typed scancode =
      { c with
        keyboard := c.keyboard.decoded scancode
        queue := c.queue.pushAll (c.keyboard.decoder.feed scancode).1.byte?.toList } := by
  have hzero := c.keyboard.decoder.byte?_feed_ne_zero scancode
  unfold typed enqueueEvent
  cases hbyte : (c.keyboard.decoder.feed scancode).1.byte? with
  | none => rfl
  | some byte =>
      rw [hbyte] at hzero
      have hne : byte ≠ 0 := fun h => hzero (congrArg some h)
      exact if_neg hne

theorem typeAll_pushes (c : Console) (scancodes : List UInt8) :
    c.typeAll scancodes =
      { c with
        keyboard := { c.keyboard with decoder := c.keyboard.decoder.after scancodes }
        queue := c.queue.pushAll (c.keyboard.decoder.keyBytes scancodes) } := by
  induction scancodes generalizing c with
  | nil =>
      rw [Decoder.after_nil]
      rfl
  | cons scancode rest ih =>
      refine (ih (c.typed scancode)).trans ?_
      rw [typed_pushes, Decoder.after_cons, Decoder.keyBytes_cons, Ring.pushAll_append]
      rfl

/-- What both devices bring is queued, the serial port first. -/
theorem look_pushes (c : Console) (i : Bench.Inlet) :
    (c.listen i).typeAll i.scancodes =
      { c with
        keyboard := { c.keyboard with decoder := c.keyboard.decoder.after i.scancodes }
        queue := c.queue.pushAll (c.intake i) } := by
  unfold listen intake
  by_cases hpresent : c.uart.present = true
  · -- the serial port leaves the decoder alone, so the keys type what they would have
    rw [if_pos hpresent, if_pos hpresent, receiveAll_pushes, typeAll_pushes, Ring.pushAll_append]
  · rw [if_neg hpresent, if_neg hpresent, typeAll_pushes, List.nil_append]

/-- What is unread after a look at both devices: the newest 512 bytes of what was unread
    before and what the look brings. -/
def unreadAfter (c : Console) (i : Bench.Inlet) : List UInt8 :=
  (c.queue.contents ++ c.intake i).rtake Ring.capacity

variable {c : Console} {b : Bench} {fuel : Nat}

/-- Taking a byte looks at both devices, and takes the first of what is unread then. -/
theorem input_takes (hc : c.OnBench b) (hqueue : c.queue.Bounded)
    (hreceived : b.received.length < fuel) (hscancodes : b.scancodes.length < fuel)
    (records : List Record) :
    c.input.Returns Bench.respond.handler.keepingRecords fuel (b, records) fun v s' =>
      v.1 = (c.unreadAfter b.inlet).head? ∧ v.2.queue.contents = (c.unreadAfter b.inlet).tail ∧
      v.2.queue.Bounded ∧
      v.2 = { c with
        keyboard := { c.keyboard with decoder := c.keyboard.decoder.after b.scancodes }
        queue := v.2.queue } ∧
      b.Looked (c.serialReads b.inlet ++ keyboardReads b.inlet)
        ⟨if c.uart.present then [] else b.received, [], b.uartPresent⟩ s'.1 := by
  refine returns_mono (input_drains hc hreceived hscancodes) ?_
  rintro ⟨_, _⟩ s' ⟨rfl, rfl, hlooked⟩
  have hpushes := c.look_pushes b.inlet
  have hscan : b.inlet.scancodes = b.scancodes := rfl
  rw [hscan] at hpushes
  rcases Ring.contents_pushAll Ring.wideEnough_word hqueue (c.intake b.inlet) with
    ⟨hbounded, hcontents⟩
  -- A byte is popped after both devices are empty.
  have hpop := Ring.contents_pop_queue Ring.wideEnough_word hbounded
  rw [hcontents, BoundedQueue.pop_eq] at hpop
  obtain ⟨hhead, htail⟩ := Prod.mk.inj hpop
  have hinlet : ({ c.listened b.inlet with scancodes := [] } : Bench.Inlet) =
      ⟨if c.uart.present then [] else b.received, [], b.uartPresent⟩ := by
    unfold listened
    by_cases hpresent : c.uart.present = true
    · rw [if_pos hpresent, if_pos hpresent]
      rfl
    · rw [if_neg hpresent, if_neg hpresent]
      rfl
  rw [hinlet] at hlooked
  rw [hpushes]
  exact ⟨hhead, htail, Ring.bounded_pop Ring.wideEnough_word hbounded, rfl, hlooked⟩

/-- What was found to be present is empty then, and the other is not looked at. -/
theorem intake_of_emptied (c : Console) (received : List UInt8) (uartPresent : Bool) :
    c.intake ⟨if c.uart.present then [] else received, [], uartPresent⟩ = [] := by
  unfold intake
  by_cases hpresent : c.uart.present = true
  · simp only [if_pos hpresent]
    rfl
  · simp only [if_neg hpresent]
    rfl

/-- A look is never left with more than 512 bytes. -/
theorem unreadAfter_length (c : Console) (i : Bench.Inlet) :
    (c.unreadAfter i).length ≤ Ring.capacity := by
  unfold unreadAfter List.rtake
  rw [List.length_drop]
  omega

theorem unreadAfter_of_emptied (c : Console) (received : List UInt8) (uartPresent : Bool)
    (hfits : c.queue.contents.length ≤ Ring.capacity) :
    c.unreadAfter ⟨if c.uart.present then [] else received, [], uartPresent⟩ =
      c.queue.contents := by
  unfold unreadAfter
  rw [intake_of_emptied, List.append_nil]
  exact Ring.rtake_of_length_le hfits

/-- A command to take a byte answers with the byte. -/
theorem perform_input {σ : Type} {h : Handler Reporting σ} {s : σ}
    {Q : Answer × Console → σ → Prop}
    (hinput : c.input.Returns h fuel s fun v s' => Q (.byte v.1, v.2) s') :
    (c.perform .input).Returns h fuel s Q :=
  returns_bind (returns_mono hinput fun _ _ hQ => returns_pure hQ)

/-- If bytes are taken until there is none, and nothing more arrives, they are the ones that
    the first look was left with. -/
theorem inputs_take_all {c : Console} {b : Bench} (hc : c.OnBench b) (hqueue : c.queue.Bounded)
    (hreceived : b.received.length < fuel) (hscancodes : b.scancodes.length < fuel)
    (records : List Record) :
    (c.performAll (List.replicate ((c.unreadAfter b.inlet).length + 1) .input)).Returns
      Bench.respond.handler.keepingRecords fuel (b, records) fun v _ =>
        v.1 = (c.unreadAfter b.inlet).map (fun byte => .byte (some byte)) ++ [.byte none] := by
  -- The first command takes the first of these bytes, and the next looks bring none.
  generalize hbytes : c.unreadAfter b.inlet = bytes
  induction bytes generalizing c b records with
  | nil =>
      rw [List.replicate_succ]
      refine performAll_cons (perform_input (returns_mono
        (input_takes hc hqueue hreceived hscancodes records) ?_))
      rintro ⟨byte?, c'⟩ s ⟨hbyte, _⟩
      rw [hbytes] at hbyte
      exact returns_pure (congrArg (fun byte? => [Answer.byte byte?]) hbyte)
  | cons byte rest ih =>
      rw [List.replicate_succ]
      refine performAll_cons (perform_input (returns_mono
        (input_takes hc hqueue hreceived hscancodes records) ?_))
      rintro ⟨byte?, c'⟩ ⟨b', records'⟩ ⟨hbyte, hunread, hbounded, hrest, hlooked⟩
      rw [hbytes] at hbyte hunread
      obtain ⟨decoder, queue, rfl⟩ : ∃ decoder queue,
          c' = { c with keyboard := { c.keyboard with decoder }, queue } := ⟨_, _, hrest⟩
      have hinlet := hlooked.inlet
      have hreceived' : b'.received.length ≤ b.received.length := by
        have hleft : b'.received = if c.uart.present then [] else b.received :=
          congrArg Bench.Inlet.received hinlet
        rw [hleft]
        split
        · exact Nat.zero_le _
        · exact Nat.le_refl _
      have hscancodes' : b'.scancodes = [] := congrArg Bench.Inlet.scancodes hinlet
      have hbench : ({ c with keyboard := { c.keyboard with decoder }, queue } :
          Console).OnBench b' :=
        hc.congr rfl rfl rfl rfl (congrArg Bench.Inlet.uartPresent hinlet)
      -- Nothing is lost, as what is left is shorter than what was there.
      have hnext : ({ c with keyboard := { c.keyboard with decoder }, queue } :
          Console).unreadAfter b'.inlet = rest := by
        have hlength := c.unreadAfter_length b.inlet
        have hleft : queue.contents = rest := hunread
        rw [hbytes, List.length_cons, ← hleft] at hlength
        rw [show b'.inlet = _ from hinlet, ← hleft]
        exact unreadAfter_of_emptied _ b.received b.uartPresent (Nat.le_of_succ_le hlength)
      have hfuel : b'.scancodes.length < fuel := by
        rw [hscancodes']
        exact Nat.zero_lt_of_lt hscancodes
      -- A look needs no more fuel than the one before it.
      refine returns_mono (ih hbench hbounded (by omega) hfuel records' hnext) ?_
      rintro ⟨answers, c''⟩ s hanswers
      exact congrArg₂ (fun byte? answers => Answer.byte byte? :: answers) hbyte hanswers

/-- The status of the serial port is read once more than bytes wait there, and not at all if
    none was found. -/
theorem count_status_serialReads (c : Console) (i : Bench.Inlet) :
    (c.serialReads i).count (Bench.uartPort + 5) =
      if c.uart.present then i.received.length + 1 else 0 := by
  -- The port that a byte is taken from is another one.
  have hports : Bench.uartPort ≠ Bench.uartPort + 5 := by decide
  unfold serialReads
  by_cases hpresent : c.uart.present = true
  · rw [if_pos hpresent, if_pos hpresent]
    exact Bench.count_status_drainReads hports i.received
  · rw [if_neg hpresent, if_neg hpresent]
    rfl

/-- Taking a byte ends with more fuel than bytes wait in either device. It asks the serial
    port, unless none was found, until that has no more, and then the keyboard: a status
    before each byte and one at the end. Both are empty then, the decoder has seen every
    scan code, and of what was unread and what came the newest 512 bytes stay. The first of
    these is taken, if there is one, and the others are unread. -/
theorem input_empties_devices (hc : c.OnBench b) (hqueue : c.queue.Bounded)
    (hreceived : b.received.length < fuel) (hscancodes : b.scancodes.length < fuel)
    (records : List Record) :
    ∃ r c' b' records',
      c.input.run Bench.respond.handler.keepingRecords fuel (b, records) =
        .ok ((r.head?, c'), b', records') ∧
      r = (c.queue.contents ++ c.intake b.inlet).rtake Ring.capacity ∧
      c'.queue.contents = r.tail ∧ c'.queue.Bounded ∧
      c' = { c with
        keyboard := { c.keyboard with decoder := c.keyboard.decoder.after b.scancodes }
        queue := c'.queue } ∧
      b'.inlet = ⟨if c.uart.present then [] else b.received, [], b.uartPresent⟩ ∧
      b'.outlet = b.outlet ∧
      b'.reads.toList = b.reads.toList ++ (c.serialReads b.inlet ++ keyboardReads b.inlet) ∧
      (c.serialReads b.inlet).count (Bench.uartPort + 5) =
        (if c.uart.present then b.received.length + 1 else 0) ∧
      (keyboardReads b.inlet).count Bench.keyboardStatusPort = b.scancodes.length + 1 := by
  obtain ⟨⟨byte?, c'⟩, ⟨b', records'⟩, hrun, hbyte, hunread, hbounded, hrest, hlooked⟩ :=
    input_takes hc hqueue hreceived hscancodes records
  -- Nothing more is needed than what one look does, counted.
  have htaken : byte? = (c.unreadAfter b.inlet).head? := hbyte
  rw [htaken] at hrun
  have hports : Bench.keyboardDataPort ≠ Bench.keyboardStatusPort := by decide
  exact ⟨_, c', b', records', hrun, rfl, hunread, hbounded, hrest, hlooked.inlet,
    hlooked.outlet, hlooked.reads, c.count_status_serialReads b.inlet,
    Bench.count_status_drainReads hports b.scancodes⟩

/-- A zero byte and a letter wait in the serial port, and a key was pressed. -/
theorem input_empties_devices_key_and_serial :
    lastCell.OnBench { received := [0x00, 0x61], scancodes := [0x30] } ∧
    lastCell.queue.Bounded ∧
    ∃ c' b' records',
      lastCell.input.run Bench.respond.handler.keepingRecords 3
        ({ received := [0x00, 0x61], scancodes := [0x30] }, []) =
          .ok ((some 0x61, c'), b', records') ∧
      c'.queue.contents = [0x62] ∧ b'.inlet = ⟨[], [], true⟩ ∧
      b'.reads.toList = [0x3FD, 0x3F8, 0x3FD, 0x3F8, 0x3FD, 0x64, 0x60, 0x64] := by
  have hc : lastCell.OnBench { received := [0x00, 0x61], scancodes := [0x30] } :=
    ⟨rfl, rfl, rfl, rfl, fun _ => rfl⟩
  have hqueue : lastCell.queue.Bounded := Ring.bounded_empty
  refine ⟨hc, hqueue, ?_⟩
  obtain ⟨r, c', b', records', hrun, hr, hunread, _, _, hinlet, _, hreads, _⟩ :=
    input_empties_devices hc hqueue (show 2 < 3 by decide) (show 1 < 3 by decide) []
  have hbytes : r = [0x61, 0x62] := hr.trans (by decide +kernel)
  rw [hbytes] at hrun hunread
  exact ⟨c', b', records', hrun, hunread, hinlet, hreads⟩

end Console

end KernelConsole
