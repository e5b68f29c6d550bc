import Mathlib.Tactic.SplitIfs
import KernelConsole.Console.Command
import KernelConsole.Machine.Bench
import KernelConsole.Proofs.Returns

/-!
# Draining the Input Devices

What a console takes in from the bench. Looking at a device empties it: every byte that
waits in the serial port is queued unless it is zero, and every scan code goes through
the decoder and queues what it means. Then there is nothing left to look at, so a look
ends, with more fuel than there are bytes.

What a look does is a function of the console and of what waits in the devices. Whether
the transmitter is ready stands in the same status register, but is no part of it. The
ports that are read follow from what waits as well: the status before every byte, and
once more to find that there is none.

## Main definitions

* `Bench.Inlet`: What waits in the input devices of a bench.
* `Bench.Looked`: What the input devices hold after reads of some ports.
* `Bench.drainReads`: The ports that are read when a device is drained.
* `Console.OnBench`: A console drives the devices of a bench.
* `Console.receiveAll`, `Console.typeAll`: Taking in bytes and scan codes.
* `Console.look`: What an input command does.

## Theorems

* `Bench.readPort_lineStatus`, `Bench.readPort_receive`: The serial port of the bench.
* `Bench.readPort_keyboardStatus`, `Bench.readPort_keyboardData`: Its keyboard.
* `Console.serialInterrupt_drains`, `Console.keyboardInterrupt_drains`: One device.
* `Console.input_drains`, `Console.perform_look`: An input command.
-/

namespace KernelConsole

open Prog

namespace Bench

/-- What waits in the input devices, and whether there is a serial port. -/
structure Inlet where
  /-- Bytes that wait in the UART. -/
  received : List UInt8
  /-- Scan codes that wait in the keyboard controller. -/
  scancodes : List UInt8
  /-- There is a UART. -/
  uartPresent : Bool

/-- The input devices of a bench. -/
def inlet (b : Bench) : Inlet := ⟨b.received, b.scancodes, b.uartPresent⟩

/-- The port belongs to the serial port, the printer or a display controller. -/
def isOutputPort (port : UInt16) : Bool :=
  (uartPort ≤ port && port < uartPort + 8) || (printerPort ≤ port && port < printerPort + 3) ||
    port == colorCrtcPort || port == colorCrtcPort + 1 ||
    port == monoCrtcPort || port == monoCrtcPort + 1

/-- What was written to the serial port, the printer and the display controllers, oldest
    first. -/
def outputWrites (b : Bench) : List (UInt16 × UInt8) :=
  b.writes.toList.filter fun w => isOutputPort w.1

/-- What output leaves behind: the memory, the display controllers and what was written to
    the output devices. -/
structure Outlet where
  memory : Memory
  /-- There is memory where the colour adapter has its cells. -/
  colorPresent : Bool
  crtcs : CrtcBank
  /-- What was written to the output devices, oldest first. -/
  writes : List (UInt16 × UInt8)

/-- The output devices of a bench. -/
def outlet (b : Bench) : Outlet := ⟨b.memory, b.colorPresent, b.crtcs, b.outputWrites⟩

/-- The status says that a byte is waiting exactly if one is, whether or not the
    transmitter is ready. -/
theorem lineStatus_received (b : Bench) :
    b.lineStatus &&& Uart.received = if b.received.isEmpty then 0 else 1 := by
  unfold lineStatus
  cases b.received.isEmpty <;> cases b.transmitReady <;> decide

/-- Reading a port reaches no output device. -/
theorem outlet_readPort (b : Bench) (port : UInt16) : (b.readPort port).2.outlet = b.outlet := by
  rcases b.readPort_state port with ⟨_, _, _, hstate, _⟩
  rw [hstate]
  rfl

theorem outputWrites_writePort (b : Bench) (port : UInt16) (value : UInt8) :
    (b.writePort port value).outputWrites =
      b.outputWrites ++ [(port, value)].filter fun w => isOutputPort w.1 := by
  rcases b.writePort_state port value with ⟨_, hstate⟩
  unfold outputWrites
  rw [hstate, Array.toList_push, List.filter_append]

/-- Writing to a port that is none of theirs does not either. -/
theorem outlet_writePort (b : Bench) {port : UInt16} (h : isOutputPort port = false)
    (value : UInt8) : (b.writePort port value).outlet = b.outlet := by
  have hwrites := b.outputWrites_writePort port value
  have hnone : [(port, value)].filter (fun w => isOutputPort w.1) = [] :=
    List.filter_cons_of_neg (Bool.eq_false_iff.1 h)
  rw [hnone, List.append_nil] at hwrites
  simp only [isOutputPort, Bool.or_eq_false_iff, beq_eq_false_iff_ne] at h
  have hsame : b.writePort port value = { b with writes := b.writes.push (port, value) } := by
    unfold writePort
    rw [if_neg (by simp [h]), if_neg (by simp [h])]
  rw [hsame] at hwrites ⊢
  unfold outlet
  rw [hwrites]

/-- Reading a port takes from an input device only if it is the port for that. -/
theorem inlet_readPort (b : Bench) {port : UInt16} (huart : port ≠ uartPort)
    (hkeyboard : port ≠ keyboardDataPort) : (b.readPort port).2.inlet = b.inlet := by
  rcases b.readPort_state port with ⟨_, _, _, hstate, hscancodes, hreceived⟩
  rw [hstate, hscancodes hkeyboard, hreceived huart]
  rfl

theorem inlet_writePort (b : Bench) (port : UInt16) (value : UInt8) :
    (b.writePort port value).inlet = b.inlet := by
  rcases b.writePort_state port value with ⟨_, hstate⟩
  rw [hstate]
  rfl

/-- What waits in the input devices now is `i`. The ports were read since, in this order,
    and no output device was reached. -/
structure Looked (b : Bench) (ports : List UInt16) (i : Inlet) (b' : Bench) : Prop where
  inlet : b'.inlet = i
  outlet : b'.outlet = b.outlet
  reads : b'.reads.toList = b.reads.toList ++ ports

/-- The ports that are read while these bytes are taken from a device, and until its status
    says that there are no more. -/
def drainReads (status data : UInt16) (bytes : List UInt8) : List UInt16 :=
  bytes.flatMap (fun _ => [status, data]) ++ [status]

theorem Looked.refl (b : Bench) : b.Looked [] b.inlet b where
  inlet := rfl
  outlet := rfl
  reads := (List.append_nil _).symm

theorem Looked.trans {b b₁ b₂ : Bench} {ports ports' : List UInt16} {i j : Inlet}
    (h : b.Looked ports i b₁) (h' : b₁.Looked ports' j b₂) : b.Looked (ports ++ ports') j b₂ where
  inlet := h'.inlet
  outlet := h'.outlet.trans h.outlet
  reads := by rw [h'.reads, h.reads, List.append_assoc]

theorem reads_readPort (b : Bench) (port : UInt16) :
    (b.readPort port).2.reads = b.reads.push port := by
  rcases b.readPort_state port with ⟨_, _, _, hstate, _⟩
  rw [hstate]

theorem looked_readPort {b : Bench} {port : UInt16} {i : Inlet}
    (h : (b.readPort port).2.inlet = i) : b.Looked [port] i (b.readPort port).2 where
  inlet := h
  outlet := b.outlet_readPort port
  reads := by rw [b.reads_readPort, Array.toList_push]

/-- The line status of a UART that is there says whether a byte waits, and takes none. -/
theorem readPort_lineStatus {b : Bench} (h : b.uartPresent = true) :
    (b.readPort (uartPort + 5)).1 = b.lineStatus ∧
      b.Looked [uartPort + 5] b.inlet (b.readPort (uartPort + 5)).2 := by
  have hvalue : b.readPort (uartPort + 5) =
      (b.lineStatus, { b with reads := b.reads.push (uartPort + 5) }) := by
    unfold readPort portValue
    rw [if_neg (by decide), if_neg (by decide), if_neg (by decide), if_neg (by simp [h]),
      if_pos rfl]
    rfl
  exact ⟨congrArg Prod.fst hvalue, looked_readPort (congrArg (·.2.inlet) hvalue)⟩

/-- The receive register gives the first byte that waits, and takes it. -/
theorem readPort_receive {b : Bench} (h : b.uartPresent = true) :
    (b.readPort uartPort).1 = b.received.headD 0 ∧
      b.Looked [uartPort] { b.inlet with received := b.received.tail } (b.readPort uartPort).2 := by
  have hvalue : b.readPort uartPort = (b.received.headD 0,
      { b with reads := b.reads.push uartPort, received := b.received.tail }) := by
    unfold readPort portValue
    rw [if_neg (by decide), if_neg (by decide), if_neg (by decide), if_neg (by simp [h]),
      if_neg (by decide), if_pos rfl]
  exact ⟨congrArg Prod.fst hvalue, looked_readPort (congrArg (·.2.inlet) hvalue)⟩

theorem readPort_keyboardStatus (b : Bench) :
    (b.readPort keyboardStatusPort).1 = (if b.scancodes.isEmpty then 0 else 1) ∧
      b.Looked [keyboardStatusPort] b.inlet (b.readPort keyboardStatusPort).2 := by
  have hvalue : b.readPort keyboardStatusPort = (if b.scancodes.isEmpty then 0 else 1,
      { b with reads := b.reads.push keyboardStatusPort }) := by
    unfold readPort portValue
    rw [if_neg (by decide), if_pos rfl]
  exact ⟨congrArg Prod.fst hvalue, looked_readPort (congrArg (·.2.inlet) hvalue)⟩

theorem readPort_keyboardData (b : Bench) :
    (b.readPort keyboardDataPort).1 = b.scancodes.headD 0 ∧
      b.Looked [keyboardDataPort] { b.inlet with scancodes := b.scancodes.tail }
        (b.readPort keyboardDataPort).2 := by
  have hvalue : b.readPort keyboardDataPort = (b.scancodes.headD 0,
      { b with reads := b.reads.push keyboardDataPort, scancodes := b.scancodes.tail }) := by
    unfold readPort portValue
    rw [if_neg (by decide), if_neg (by decide), if_pos rfl]
  exact ⟨congrArg Prod.fst hvalue, looked_readPort (congrArg (·.2.inlet) hvalue)⟩

/-- A write to a port that is none of theirs takes nothing from the input devices. -/
theorem looked_writePort (b : Bench) {port : UInt16} (h : isOutputPort port = false)
    (value : UInt8) : b.Looked [] b.inlet (b.writePort port value) where
  inlet := b.inlet_writePort port value
  outlet := b.outlet_writePort h value
  reads := by
    rcases b.writePort_state port value with ⟨_, hstate⟩
    rw [hstate, List.append_nil]

end Bench

/-- The keyboard after a scan code. A reset that it asks for is done with at once. -/
def Keyboard.decoded (k : Keyboard) (scancode : UInt8) : Keyboard :=
  { k with decoder := (k.decoder.feed scancode).2.takeReset.2 }

namespace Console

/-- The console drives the devices of a bench, and if it has found a serial port there is
    one. -/
structure OnBench (c : Console) (b : Bench) : Prop where
  uart : c.uart.base = Bench.uartPort
  printer : c.printer.base = Bench.printerPort
  keyboardStatus : c.keyboard.statusPort = Bench.keyboardStatusPort
  keyboardData : c.keyboard.dataPort = Bench.keyboardDataPort
  /-- A serial port that was found is there. -/
  present : c.uart.present = true → b.uartPresent = true

/-- It does not matter what the console shows, queues and decodes, and what waits on the
    bench. -/
theorem OnBench.congr {c c' : Console} {b b' : Bench} (h : c.OnBench b) (huart : c'.uart = c.uart)
    (hprinter : c'.printer = c.printer) (hstatus : c'.keyboard.statusPort = c.keyboard.statusPort)
    (hdata : c'.keyboard.dataPort = c.keyboard.dataPort)
    (hpresent : b'.uartPresent = b.uartPresent) : c'.OnBench b' where
  uart := by rw [huart, h.uart]
  printer := by rw [hprinter, h.printer]
  keyboardStatus := hstatus.trans h.keyboardStatus
  keyboardData := hdata.trans h.keyboardData
  present hfound := by
    rw [hpresent]
    exact h.present (huart ▸ hfound)

/-- Queues bytes, unless they are zero. -/
def receiveAll (c : Console) (bytes : List UInt8) : Console := bytes.foldl enqueue c

/-- Decodes a scan code and queues what it means. -/
def typed (c : Console) (scancode : UInt8) : Console :=
  { c with keyboard := c.keyboard.decoded scancode }.enqueueEvent
    (c.keyboard.decoder.feed scancode).1

/-- Decodes scan codes and queues what they mean. -/
def typeAll (c : Console) (scancodes : List UInt8) : Console := scancodes.foldl typed c

/-- The console after a look at a serial port. -/
def listen (c : Console) (i : Bench.Inlet) : Console :=
  if c.uart.present then c.receiveAll i.received else c

/-- What waits after a look at the serial port. -/
def listened (c : Console) (i : Bench.Inlet) : Bench.Inlet :=
  if c.uart.present then { i with received := [] } else i

/-- What an input command returns and leaves behind, the console and what waits. -/
def look (c : Console) (i : Bench.Inlet) : Command → (Answer × Console) × Bench.Inlet
  | .serialInterrupt => ((.nothing, c.listen i), c.listened i)
  | .keyboardInterrupt => ((.nothing, c.typeAll i.scancodes), { i with scancodes := [] })
  | .input =>
      let d := (c.listen i).typeAll i.scancodes
      ((.byte d.queue.pop.1, { d with queue := d.queue.pop.2 }),
        { c.listened i with scancodes := [] })
  | _ => ((.nothing, c), i)

theorem enqueue_eq (c : Console) (byte : UInt8) :
    c.enqueue byte = { c with queue := if byte = 0 then c.queue else c.queue.push byte } := by
  unfold enqueue
  split <;> rfl

/-- What is queued for an event changes the queue alone. -/
theorem enqueueEvent_queue (c : Console) (event : KeyEvent) :
    ∃ queue, c.enqueueEvent event = { c with queue } := by
  unfold enqueueEvent
  cases event.byte? with
  | none => exact ⟨c.queue, rfl⟩
  | some byte => exact ⟨_, enqueue_eq c byte⟩

/-- A scan code changes the decoder and the queue. -/
theorem typed_eq (c : Console) (scancode : UInt8) : ∃ queue,
    c.typed scancode = { c with keyboard := c.keyboard.decoded scancode, queue } :=
  enqueueEvent_queue _ _

theorem receiveAll_eq (c : Console) (bytes : List UInt8) :
    ∃ queue, c.receiveAll bytes = { c with queue } := by
  induction bytes generalizing c with
  | nil => exact ⟨c.queue, rfl⟩
  | cons byte rest ih =>
      rcases ih (c.enqueue byte) with ⟨queue, hrest⟩
      refine ⟨queue, hrest.trans ?_⟩
      rw [enqueue_eq]

/-- Scan codes change the decoder and the queue, and not the ports of the keyboard. -/
theorem typeAll_eq (c : Console) (scancodes : List UInt8) : ∃ decoder queue,
    c.typeAll scancodes = { c with keyboard := { c.keyboard with decoder }, queue } := by
  induction scancodes generalizing c with
  | nil => exact ⟨c.keyboard.decoder, c.queue, rfl⟩
  | cons scancode rest ih =>
      rcases ih (c.typed scancode) with ⟨decoder, queue, hrest⟩
      rcases c.typed_eq scancode with ⟨queue₁, htyped⟩
      refine ⟨decoder, queue, hrest.trans ?_⟩
      rw [htyped]
      rfl

theorem listen_eq (c : Console) (i : Bench.Inlet) : ∃ queue, c.listen i = { c with queue } := by
  unfold listen
  by_cases hpresent : c.uart.present = true
  · rw [if_pos hpresent]
    exact c.receiveAll_eq i.received
  · rw [if_neg hpresent]
    exact ⟨c.queue, rfl⟩

/-- An input command changes the decoder and the queue. -/
theorem look_eq (c : Console) (i : Bench.Inlet) (command : Command) : ∃ decoder queue,
    (c.look i command).1.2 = { c with keyboard := { c.keyboard with decoder }, queue } := by
  rcases c.listen_eq i with ⟨queue, hlisten⟩
  cases command with
  | serialInterrupt => exact ⟨c.keyboard.decoder, queue, hlisten⟩
  | keyboardInterrupt => exact c.typeAll_eq i.scancodes
  | input =>
      -- First the serial port, which changes the queue, and then the keyboard.
      rcases (c.listen i).typeAll_eq i.scancodes with ⟨decoder, queue₁, htype⟩
      have hsame : ({ c.listen i with
            keyboard := { (c.listen i).keyboard with decoder }, queue := queue₁ } : Console) =
          { c with keyboard := { c.keyboard with decoder }, queue := queue₁ } := by
        rw [hlisten]
      refine ⟨decoder, ((c.listen i).typeAll i.scancodes).queue.pop.2, ?_⟩
      exact congrArg (fun d : Console =>
        { d with queue := ((c.listen i).typeAll i.scancodes).queue.pop.2 }) (htype.trans hsame)
  | _ => exact ⟨c.keyboard.decoder, c.queue, rfl⟩

/-- An input command leaves no more in the devices than was there. -/
theorem look_inlet (c : Console) (i : Bench.Inlet) (command : Command) :
    (c.look i command).2.uartPresent = i.uartPresent ∧
      (c.look i command).2.received.length ≤ i.received.length ∧
      (c.look i command).2.scancodes.length ≤ i.scancodes.length := by
  have hlistened : (c.listened i).uartPresent = i.uartPresent ∧
      (c.listened i).received.length ≤ i.received.length ∧
      (c.listened i).scancodes.length ≤ i.scancodes.length := by
    unfold listened
    split_ifs
    · exact ⟨rfl, Nat.zero_le _, Nat.le_refl _⟩
    · exact ⟨rfl, Nat.le_refl _, Nat.le_refl _⟩
  cases command with
  | serialInterrupt => exact hlistened
  | keyboardInterrupt => exact ⟨rfl, Nat.le_refl _, Nat.zero_le _⟩
  | input => exact ⟨hlistened.1, hlistened.2.1, Nat.zero_le _⟩
  | _ => exact ⟨rfl, Nat.le_refl _, Nat.le_refl _⟩

variable {fuel : Nat} {c : Console} {b : Bench} {records : List Record}

theorem readReg_bench {r : Register} {Q : UInt8 → Bench → Prop}
    (hQ : Q (b.readPort r.port).1 (b.readPort r.port).2) :
    (readReg r).Returns Bench.respond.handler fuel b Q :=
  returns_access _ hQ

/-- Looking at the serial port takes the first byte that waits, if there is one. -/
theorem tryReceive_bench (hbase : c.uart.base = Bench.uartPort) (hpresent : b.uartPresent = true) :
    c.uart.tryReceive.Returns Bench.respond.handler fuel b fun byte? b' =>
      byte? = b.received.head? ∧
        b.Looked ((Bench.uartPort + 5) :: if b.received.isEmpty then [] else [Bench.uartPort])
          { b.inlet with received := b.received.tail } b' := by
  have hstatus : (c.uart.reg .lineStatus).port = Bench.uartPort + 5 :=
    congrArg (· + 5) hbase
  have hreceive : (c.uart.reg .receive).port = Bench.uartPort :=
    (UInt16.add_zero _).trans hbase
  refine returns_bind (readReg_bench ?_)
  rw [hstatus]
  rcases Bench.readPort_lineStatus hpresent with ⟨hvalue, hlooked⟩
  rw [hvalue, b.lineStatus_received]
  -- What the look at the status leaves behind has the same bytes waiting.
  generalize (b.readPort (Bench.uartPort + 5)).2 = b₁ at hlooked
  have hreceived : b₁.received = b.received := congrArg Bench.Inlet.received hlooked.inlet
  have hpresent₁ : b₁.uartPresent = true :=
    (congrArg Bench.Inlet.uartPresent hlooked.inlet).trans hpresent
  cases hwaiting : b.received with
  | nil =>
      have hsame : ({ b.inlet with received := [] } : Bench.Inlet) = b.inlet := by
        rw [← hwaiting]
        rfl
      refine returns_pure ⟨rfl, ?_⟩
      rw [List.tail_nil, hsame]
      exact hlooked
  | cons byte rest =>
      refine returns_bind (readReg_bench ?_)
      rw [hreceive]
      rcases Bench.readPort_receive hpresent₁ with ⟨hbyte, hlooked₁⟩
      rw [hreceived, hwaiting] at hbyte hlooked₁
      rw [hlooked.inlet] at hlooked₁
      exact returns_pure ⟨congrArg some hbyte, hlooked.trans hlooked₁⟩

/-- The ports that a look at the serial port reads: none for a port that was not found. -/
def serialReads (c : Console) (i : Bench.Inlet) : List UInt16 :=
  if c.uart.present then Bench.drainReads (Bench.uartPort + 5) Bench.uartPort i.received else []

/-- The ports that a look at the keyboard reads. -/
def keyboardReads (i : Bench.Inlet) : List UInt16 :=
  Bench.drainReads Bench.keyboardStatusPort Bench.keyboardDataPort i.scancodes

/-- Every byte that waits in the serial port is queued, unless it is zero, and then none
    waits. -/
theorem serialInterrupt_drains (hc : c.OnBench b) (hfuel : b.received.length < fuel) :
    c.serialInterrupt.Returns Bench.respond.handler fuel b fun c' b' =>
      c' = c.listen b.inlet ∧ b.Looked (c.serialReads b.inlet) (c.listened b.inlet) b' := by
  unfold serialInterrupt listen listened serialReads
  by_cases hpresent : c.uart.present = true
  · simp only [if_pos hpresent]
    -- A round takes one byte. What is queued and what waits make up the same, and a look
    -- at what waits then completes the look at what waited first.
    refine returns_iterate (fun k d e => e.received.length = k ∧ d.uart = c.uart ∧
      d.receiveAll e.received = c.receiveAll b.received ∧
      e.inlet = { b.inlet with received := e.received } ∧
      ∀ i f, e.Looked (Bench.drainReads (Bench.uartPort + 5) Bench.uartPort e.received) i f →
        b.Looked (Bench.drainReads (Bench.uartPort + 5) Bench.uartPort b.received) i f)
      hfuel ⟨rfl, rfl, rfl, rfl, fun _ _ hlooked => hlooked⟩ ?_
    rintro k d e ⟨rfl, hd, hqueued, hinlet, hcompletes⟩
    have hbase : d.uart.base = Bench.uartPort := hd ▸ hc.uart
    have huart : e.uartPresent = true :=
      (congrArg Bench.Inlet.uartPresent hinlet).trans (hc.present hpresent)
    refine returns_bind (returns_mono (tryReceive_bench hbase huart) ?_)
    rintro byte? e' ⟨rfl, hlooked⟩
    rw [hinlet] at hlooked
    cases hwaiting : e.received with
    | nil =>
        rw [hwaiting] at hqueued hlooked hcompletes
        exact returns_pure ⟨hqueued, hcompletes _ _ hlooked⟩
    | cons byte rest =>
        rw [hwaiting] at hqueued hlooked hcompletes
        have hrest : e'.received = rest := congrArg Bench.Inlet.received hlooked.inlet
        refine returns_pure ⟨rest.length, Nat.lt_succ_self _, ?_⟩
        rw [hrest]
        exact ⟨rfl, (congrArg Console.uart (d.enqueue_eq byte)).trans hd, hqueued, hlooked.inlet,
          fun i f hthen => hcompletes i f (hlooked.trans hthen)⟩
  · simp only [if_neg hpresent]
    exact returns_pure ⟨rfl, .refl b⟩

/-- Resetting the machine is one write to the system control register. -/
theorem handle_bench (k : Keyboard) (scancode : UInt8) :
    (k.handle scancode).Returns Bench.respond.handler.keepingRecords fuel (b, records)
      fun v s' => v = ((k.decoder.feed scancode).1, k.decoded scancode) ∧
        b.Looked [] b.inlet s'.1 := by
  unfold Keyboard.handle
  by_cases hreset : (k.decoder.feed scancode).2.takeReset.1 = true
  · simp only [if_pos hreset]
    have hwrite : (writeReg .systemControl Keyboard.resetMachine).Returns Bench.respond.handler
        fuel b fun _ b' => b.Looked [] b.inlet b' :=
      returns_access _ (show b.Looked [] b.inlet (b.writePort 0x92 _) from
        b.looked_writePort (by decide) _)
    refine returns_bind ⟨(), _, rfl, ?_⟩
    refine returns_bind (returns_unreported (returns_mono hwrite fun _ b' hb' => ?_))
    exact returns_pure ⟨rfl, hb'⟩
  · simp only [if_neg hreset]
    exact returns_pure ⟨rfl, .refl b⟩

variable {k : Keyboard}

/-- A poll of a keyboard where nothing waits reads its status. -/
theorem poll_none (hstatus : k.statusPort = Bench.keyboardStatusPort) (hnone : b.scancodes = []) :
    k.poll.Returns Bench.respond.handler.keepingRecords fuel (b, records) fun v s' =>
      v = (none, k) ∧ b.Looked [Bench.keyboardStatusPort] b.inlet s'.1 := by
  have hport : (Register.keyboardStatus k.statusPort).port = Bench.keyboardStatusPort := hstatus
  rcases b.readPort_keyboardStatus with ⟨hvalue, hlooked⟩
  rw [hnone] at hvalue
  refine returns_bind (returns_unreported (readReg_bench ?_))
  rw [hport, hvalue]
  exact returns_pure ⟨rfl, hlooked⟩

/-- A poll where a scan code waits reads it too, and decodes it. -/
theorem poll_some (hstatus : k.statusPort = Bench.keyboardStatusPort)
    (hdata : k.dataPort = Bench.keyboardDataPort) {scancode : UInt8} {rest : List UInt8}
    (hsome : b.scancodes = scancode :: rest) :
    k.poll.Returns Bench.respond.handler.keepingRecords fuel (b, records) fun v s' =>
      v = (some (k.decoder.feed scancode).1, k.decoded scancode) ∧
      b.Looked [Bench.keyboardStatusPort, Bench.keyboardDataPort]
        { b.inlet with scancodes := rest } s'.1 := by
  have hport : (Register.keyboardStatus k.statusPort).port = Bench.keyboardStatusPort := hstatus
  have hport₁ : (Register.keyboardData k.dataPort).port = Bench.keyboardDataPort := hdata
  rcases b.readPort_keyboardStatus with ⟨hvalue, hlooked⟩
  rw [hsome] at hvalue
  refine returns_bind (returns_unreported (readReg_bench ?_))
  have hwaiting : ¬((if (scancode :: rest).isEmpty then 0 else 1) &&& Keyboard.waiting = 0) :=
    show ¬((1 : UInt8) &&& Keyboard.waiting = 0) by decide
  rw [hport, hvalue, if_neg hwaiting]
  -- What the status read leaves behind has the same scan codes waiting.
  generalize (b.readPort Bench.keyboardStatusPort).2 = b₁ at hlooked
  have hsome₁ : b₁.scancodes = scancode :: rest :=
    (congrArg Bench.Inlet.scancodes hlooked.inlet).trans hsome
  rcases b₁.readPort_keyboardData with ⟨hcode, hlooked₁⟩
  rw [hsome₁] at hcode hlooked₁
  rw [hlooked.inlet] at hlooked₁
  refine returns_bind (returns_unreported (readReg_bench ?_))
  rw [hport₁, hcode]
  have htaken := hlooked.trans hlooked₁
  generalize (b₁.readPort Bench.keyboardDataPort).2 = b₂ at htaken
  refine returns_bind (returns_mono (handle_bench k scancode) ?_)
  rintro _ s₂ ⟨rfl, hlooked₂⟩
  rw [htaken.inlet] at hlooked₂
  exact returns_pure ⟨rfl, htaken.trans hlooked₂⟩

/-- Every scan code that waits is decoded, what it means is queued, and then none
    waits. -/
theorem keyboardInterrupt_drains (hc : c.OnBench b) (hfuel : b.scancodes.length < fuel) :
    c.keyboardInterrupt.Returns Bench.respond.handler.keepingRecords fuel (b, records)
      fun c' s' => c' = c.typeAll b.scancodes ∧
        b.Looked (keyboardReads b.inlet) { b.inlet with scancodes := [] } s'.1 := by
  unfold keyboardInterrupt keyboardReads
  -- As for the serial port: what is decoded and what waits make up the same, round by round.
  refine returns_iterate (fun k d s => s.1.scancodes.length = k ∧
    d.keyboard.statusPort = Bench.keyboardStatusPort ∧
    d.keyboard.dataPort = Bench.keyboardDataPort ∧
    d.typeAll s.1.scancodes = c.typeAll b.scancodes ∧
    s.1.inlet = { b.inlet with scancodes := s.1.scancodes } ∧
    ∀ i f, s.1.Looked (Bench.drainReads Bench.keyboardStatusPort Bench.keyboardDataPort
        s.1.scancodes) i f →
      b.Looked (Bench.drainReads Bench.keyboardStatusPort Bench.keyboardDataPort b.scancodes) i f)
    hfuel ⟨rfl, hc.keyboardStatus, hc.keyboardData, rfl, rfl, fun _ _ hlooked => hlooked⟩ ?_
  rintro k d ⟨e, r⟩ ⟨rfl, hstatus, hdata, hqueued, hinlet, hcompletes⟩
  cases hwaiting : e.scancodes with
  | nil =>
      refine returns_bind (returns_mono (poll_none hstatus hwaiting) ?_)
      rintro _ s' ⟨rfl, hlooked⟩
      simp only [hwaiting] at hqueued hinlet hcompletes
      rw [hinlet] at hlooked
      exact returns_pure ⟨hqueued, hcompletes _ _ hlooked⟩
  | cons scancode rest =>
      refine returns_bind (returns_mono (poll_some hstatus hdata hwaiting) ?_)
      rintro _ s' ⟨rfl, hlooked⟩
      simp only [hwaiting] at hqueued hinlet hcompletes
      rw [hinlet] at hlooked
      have hrest : s'.1.scancodes = rest := congrArg Bench.Inlet.scancodes hlooked.inlet
      obtain ⟨queue, htyped⟩ := d.typed_eq scancode
      refine returns_pure ⟨rest.length, Nat.lt_succ_self _, ?_⟩
      rw [hrest]
      exact ⟨rfl, (congrArg (·.keyboard.statusPort) htyped).trans hstatus,
        (congrArg (·.keyboard.dataPort) htyped).trans hdata, hqueued, hlooked.inlet,
        fun i f hthen => hcompletes i f (hlooked.trans hthen)⟩

/-- Taking a byte looks at the serial port, then at the keyboard, and then at the
    queue. -/
theorem input_drains (hc : c.OnBench b) (hreceived : b.received.length < fuel)
    (hscancodes : b.scancodes.length < fuel) :
    c.input.Returns Bench.respond.handler.keepingRecords fuel (b, records) fun v s' =>
      v.1 = ((c.listen b.inlet).typeAll b.scancodes).queue.pop.1 ∧
      v.2 = { (c.listen b.inlet).typeAll b.scancodes with
        queue := ((c.listen b.inlet).typeAll b.scancodes).queue.pop.2 } ∧
      b.Looked (c.serialReads b.inlet ++ keyboardReads b.inlet)
        { c.listened b.inlet with scancodes := [] } s'.1 := by
  refine returns_bind (returns_unreported (returns_mono (serialInterrupt_drains hc hreceived) ?_))
  rintro _ b₁ ⟨rfl, hlooked₁⟩
  have hinlet₁ := hlooked₁.inlet
  have hcodes : b₁.scancodes = b.scancodes := by
    refine (congrArg Bench.Inlet.scancodes hinlet₁).trans ?_
    unfold listened
    split <;> rfl
  have hpresent : b₁.uartPresent = b.uartPresent := by
    refine (congrArg Bench.Inlet.uartPresent hinlet₁).trans ?_
    unfold listened
    split <;> rfl
  -- The look at the serial port has changed the queue only, so the console is still on the
  -- bench.
  have hc₁ : (c.listen b.inlet).OnBench b₁ := by
    rcases c.listen_eq b.inlet with ⟨queue, hlisten⟩
    rw [hlisten]
    exact hc.congr rfl rfl rfl rfl hpresent
  refine returns_bind (returns_mono (keyboardInterrupt_drains hc₁ (hcodes ▸ hscancodes)) ?_)
  rintro _ ⟨b₂, r₂⟩ ⟨rfl, hlooked₂⟩
  have hreads : keyboardReads b₁.inlet = keyboardReads b.inlet :=
    congrArg (Bench.drainReads _ _) hcodes
  rw [hreads, hinlet₁] at hlooked₂
  rw [hcodes]
  exact returns_pure ⟨rfl, rfl, hlooked₁.trans hlooked₂⟩

/-- An input command does what `look` says, and reaches no output device. -/
theorem perform_look (hc : c.OnBench b) (hreceived : b.received.length < fuel)
    (hscancodes : b.scancodes.length < fuel) {command : Command} (hinput : command.isInput = true) :
    (c.perform command).Returns Bench.respond.handler.keepingRecords fuel (b, records) fun v s' =>
      (v, s'.1.inlet) = c.look b.inlet command ∧ s'.1.outlet = b.outlet := by
  cases command with
  | serialInterrupt =>
      refine returns_bind (returns_unreported (returns_mono (serialInterrupt_drains hc hreceived)
        ?_))
      rintro _ b' ⟨rfl, hlooked⟩
      exact returns_pure ⟨congrArg (Prod.mk _) hlooked.inlet, hlooked.outlet⟩
  | keyboardInterrupt =>
      refine returns_bind (returns_mono (keyboardInterrupt_drains hc hscancodes) ?_)
      rintro _ s' ⟨rfl, hlooked⟩
      exact returns_pure ⟨congrArg (Prod.mk _) hlooked.inlet, hlooked.outlet⟩
  | input =>
      refine returns_bind (returns_mono (input_drains hc hreceived hscancodes) ?_)
      rintro ⟨_, _⟩ s' ⟨rfl, rfl, hlooked⟩
      exact returns_pure ⟨congrArg (Prod.mk _) hlooked.inlet, hlooked.outlet⟩
  | _ => cases hinput

theorem performAll_cons {σ : Type} {h : Handler Reporting σ} {c : Console} {s : σ}
    {command : Command} {rest : List Command} {Q : List Answer × Console → σ → Prop}
    (hfirst : (c.perform command).Returns h fuel s fun v s' =>
      (v.2.performAll rest).Returns h fuel s' fun w s'' => Q (v.1 :: w.1, w.2) s'') :
    (c.performAll (command :: rest)).Returns h fuel s Q :=
  returns_bind (returns_mono hfirst fun _ _ hrest =>
    returns_bind (returns_mono hrest fun _ _ hQ => returns_pure hQ))

end Console

end KernelConsole
