import KernelConsole.Console.LineEditor
import KernelConsole.Log.Backlog
import KernelConsole.Proofs.Ensures

/-!
# What the Drivers Access

Which accesses a driver may make, for any set of accesses that has those it
needs, and for which causes it may halt by itself. A statement that output touches
no input register, or that it stays away from some port, is the one set put in for
`P`. A driver only gives up when a cursor leaves the range of its register, so a
statement that it never waits for a lock is a set of causes `H` without deadlocks.

Each driver is gone through once, for all such sets.

## Main definitions

* `Reporting.Within`: A set of accesses, and every report.
* `Looks`: A set of accesses has those that input needs.
* `Writes`: A set of accesses has those that output needs.

## Theorems

* `spinUntil_only`, `waitForBits_only`: Waiting asks and delays.
* `Uart.transmit_only`, `Printer.transmit_only`: Sending a byte.
* `Screen.putChar_only`, `Screen.clear_only`: Writing to the screen.
* `Screen.init_only`, `Uart.init_only`: Finding the screen and the serial port.
* `Uart.tryReceive_only`, `Keyboard.poll_only`: Looking at the input devices.
* `Console.output_only`, `Console.clearScreen_only`: The output of a console.
* `Console.input_only`, `Console.blockingRead_only`: Its input.
* `Console.init_only`, `Console.readLine_only`: What does both.
-/

namespace KernelConsole

open Prog

variable {P : Access → Prop} {H : Halt → Prop}

/-- A delay asks the diagnostic port four times. -/
theorem ioDelay_only (hdelay : P (.readReg .diagnostic)) : ioDelay.Only P H :=
  Only.bind (Only.one hdelay) fun _ => Only.bind (Only.one hdelay) fun _ =>
    Only.bind (Only.one hdelay) fun _ => Only.bind (Only.one hdelay) fun _ => Only.pure

/-- Waiting makes the accesses of its test and of a delay, however long it lasts. -/
theorem spinUntil_only {τ : Type} {ready : τ → Io (Bool × τ)} (hready : ∀ t, (ready t).Only P H)
    (hdelay : P (.readReg .diagnostic)) (limit : Nat) (t : τ) :
    (spinUntil ready limit t).Only P H := by
  induction limit generalizing t with
  | zero => exact Only.pure
  | succ limit ih =>
      rw [spinUntil]
      refine Only.bind (hready t) fun ⟨yes, t'⟩ => ?_
      cases yes with
      | true => exact Only.pure
      | false => exact Only.bind (ioDelay_only hdelay) fun _ => ih t'

/-- A device that is waited for is asked for its status. -/
theorem waitForBits_only {r : Register} (hstatus : P (.readReg r))
    (hdelay : P (.readReg .diagnostic)) (limit : UInt32) (mask : UInt8) :
    (waitForBits limit r mask).Only P H :=
  Only.bind (spinUntil_only (fun _ => Only.bind (Only.one hstatus) fun _ => Only.pure)
    hdelay _ _) fun _ => Only.pure

/-- A byte that is sent is written once, after the wait. -/
theorem Uart.transmit_only {u : Uart} (hdelay : P (.readReg .diagnostic))
    (hstatus : P (.readReg (u.reg .lineStatus)))
    (hbyte : ∀ byte, P (.writeReg (u.reg .transmit) byte)) (byte : UInt8) :
    (u.transmit byte).Only P H :=
  Only.bind (waitForBits_only hstatus hdelay _ _) fun _ => Only.one (hbyte byte)

/-- A serial port that is programmed sends nothing. Its registers are read afterwards, to
    find out whether it is there and to clear what is left over. -/
theorem Uart.init_only {u : Uart}
    (hwrite : ∀ r value, r ≠ .transmit → P (.writeReg (u.reg r) value))
    (hread : ∀ r, P (.readReg (u.reg r))) : u.init.Only P H := by
  unfold Uart.init
  refine Only.bind (Only.one (hwrite _ _ nofun)) fun _ => ?_
  refine Only.bind (Only.one (hwrite _ _ nofun)) fun _ => ?_
  refine Only.bind (Only.one (hwrite _ _ nofun)) fun _ => ?_
  refine Only.bind (Only.one (hwrite _ _ nofun)) fun _ => ?_
  refine Only.bind (Only.one (hwrite _ _ nofun)) fun _ => ?_
  refine Only.bind (Only.one (hwrite _ _ nofun)) fun _ => ?_
  refine Only.bind (Only.one (hwrite _ _ nofun)) fun _ => ?_
  -- If the status floats there is no UART, and nothing more is read.
  refine Only.bind (Only.one (hread _)) fun status => Only.ite Only.pure ?_
  exact Only.bind (Only.one (hread _)) fun _ => Only.bind (Only.one (hread _)) fun _ => Only.pure

/-- A look at the serial port reads its registers and writes none. -/
theorem Uart.tryReceive_only {u : Uart} (hread : ∀ r, P (.readReg (u.reg r))) :
    u.tryReceive.Only P H :=
  Only.bind (Only.one (hread _)) fun _ =>
    Only.ite Only.pure (Only.bind (Only.one (hread _)) fun _ => Only.pure)

/-- A byte that is printed is put on the data lines, and then strobed. -/
theorem Printer.transmit_only {p : Printer} (hdelay : P (.readReg .diagnostic))
    (hstatus : P (.readReg (p.reg .status)))
    (hdata : ∀ byte, P (.writeReg (p.reg .data) byte))
    (hcontrol : ∀ byte, P (.writeReg (p.reg .control) byte)) (byte : UInt8) :
    (p.transmit byte).Only P H :=
  Only.bind (waitForBits_only hstatus hdelay _ _) fun _ =>
    Only.bind (Only.one (hdata byte)) fun _ => Only.bind (Only.one (hcontrol _)) fun _ =>
      Only.one (hcontrol _)

namespace Screen

/-- A cursor that moves makes no access. It halts where its register has no room. -/
theorem advance_only (hrange : H .cursorRange) (s : Screen) (n : Nat) : (s.advance n).Only P H :=
  Only.ite Only.pure (Only.halt hrange)

theorem retreat_only (hrange : H .cursorRange) (s : Screen) (n : Nat) : (s.retreat n).Only P H :=
  Only.ite Only.pure (Only.halt hrange)

theorem writeAt_only (hwrite : ∀ address cell, P (.writeCell address cell)) (s : Screen)
    (pos : Nat) (c : UInt8) : (s.writeAt pos c).Only P H :=
  Only.one (hwrite _ _)

theorem write_only (hrange : H .cursorRange) (hwrite : ∀ address cell, P (.writeCell address cell))
    (s : Screen) (c : UInt8) : (s.write c).Only P H :=
  Only.bind (writeAt_only hwrite s _ c) fun _ => advance_only hrange s 1

/-- Scrolling copies cells, blanks a row, and takes the cursor back. -/
theorem scrollIfNeeded_only (hrange : H .cursorRange) (hread : ∀ address, P (.readCell address))
    (hwrite : ∀ address cell, P (.writeCell address cell)) (s : Screen) :
    s.scrollIfNeeded.Only P H := by
  refine Only.ite Only.pure (Only.bind ?_ fun _ => Only.bind ?_ fun _ =>
    retreat_only hrange s columns)
  · exact Only.forM fun pos _ => Only.bind (Only.one (hread _)) fun _ => Only.one (hwrite _ _)
  · exact Only.forM fun pos _ => writeAt_only hwrite s pos 0x20

/-- The cursor is shown through the registers of the controller, and not in memory. -/
theorem syncCursor_only (hindex : ∀ a value, P (.writeReg (.crtcIndex a) value))
    (hdata : ∀ a value, P (.writeReg (.crtcData a) value)) (s : Screen) :
    s.syncCursor.Only P H :=
  Only.bind (Only.one (hindex _ _)) fun _ => Only.bind (Only.one (hdata _ _)) fun _ =>
    Only.bind (Only.one (hindex _ _)) fun _ => Only.one (hdata _ _)

theorem writeSpaces_only (hrange : H .cursorRange) (hread : ∀ address, P (.readCell address))
    (hwrite : ∀ address cell, P (.writeCell address cell)) (n : Nat) (s : Screen) :
    (writeSpaces n s).Only P H := by
  induction n generalizing s with
  | zero => exact Only.pure
  | succ n ih =>
      exact Only.bind (write_only hrange hwrite s 0x20) fun s₁ =>
        Only.bind (scrollIfNeeded_only hrange hread hwrite s₁) ih

/-- Whatever a byte means, it moves the cursor and writes cells. -/
theorem interpretByte_only (hrange : H .cursorRange) (hread : ∀ address, P (.readCell address))
    (hwrite : ∀ address cell, P (.writeCell address cell)) (s : Screen) (c : UInt8) :
    (s.interpretByte c).Only P H := by
  -- The cases are those of the source: backspace, newline, carriage return, tab, the rest.
  refine Only.ite (Only.ite Only.pure ?_) (Only.ite ?_ (Only.ite ?_ (Only.ite ?_ ?_)))
  · exact Only.bind (retreat_only hrange s 1) fun s₁ =>
      Only.bind (writeAt_only hwrite s₁ _ 0x20) fun _ => Only.pure
  · exact Only.bind (advance_only hrange s columns) fun s₁ => retreat_only hrange s₁ s₁.column
  · exact retreat_only hrange s s.column
  · exact writeSpaces_only hrange hread hwrite _ s
  · exact write_only hrange hwrite s c

/-- A character that is written is followed by the cursor. -/
theorem putChar_only (hrange : H .cursorRange) (hread : ∀ address, P (.readCell address))
    (hwrite : ∀ address cell, P (.writeCell address cell))
    (hindex : ∀ a value, P (.writeReg (.crtcIndex a) value))
    (hdata : ∀ a value, P (.writeReg (.crtcData a) value)) (s : Screen) (c : UInt8) :
    (s.putChar c).Only P H :=
  Only.bind (interpretByte_only hrange hread hwrite s c) fun s₁ =>
    Only.bind (scrollIfNeeded_only hrange hread hwrite s₁) fun s₂ =>
      Only.bind (syncCursor_only hindex hdata s₂) fun _ => Only.pure

/-- Clearing the screen reads no cell. -/
theorem clear_only (hwrite : ∀ address cell, P (.writeCell address cell))
    (hindex : ∀ a value, P (.writeReg (.crtcIndex a) value))
    (hdata : ∀ a value, P (.writeReg (.crtcData a) value)) (s : Screen) : s.clear.Only P H := by
  unfold clear
  refine Only.bind ?_ fun _ => ?_
  · exact Only.forM fun pos _ => writeAt_only hwrite s pos 0x20
  · exact Only.bind (syncCursor_only hindex hdata _) fun _ => Only.pure

/-- The adapter is found by a cell that is written and put back. -/
theorem probe_only (hread : ∀ address, P (.readCell address))
    (hwrite : ∀ address cell, P (.writeCell address cell)) : probe.Only P H := by
  unfold probe
  refine Only.bind (Only.one (hread _)) fun was => Only.bind (Only.one (hwrite _ _)) fun _ => ?_
  refine Only.bind (Only.one (hread _)) fun now => ?_
  exact Only.ite (Only.bind (Only.one (hwrite _ _)) fun _ => Only.pure) Only.pure

theorem hardwareCursor_only (hindex : ∀ a value, P (.writeReg (.crtcIndex a) value))
    (hdata : ∀ a, P (.readReg (.crtcData a))) (a : Adapter) : (hardwareCursor a).Only P H :=
  Only.bind (Only.one (hindex _ _)) fun _ => Only.bind (Only.one (hdata _)) fun _ =>
    Only.bind (Only.one (hindex _ _)) fun _ => Only.bind (Only.one (hdata _)) fun _ => Only.pure

end Screen

/-- The accesses that are allowed, and every report. -/
def Reporting.Within (P : Access → Prop) : Reporting.Request → Prop
  | .access a => P a
  | .report _ => True

/-- A program that never reports makes the same accesses among those that may. -/
theorem Prog.Only.unreported {α : Type} {p : Io α} (hp : p.Only P H) :
    p.unreported.Only (Reporting.Within P) H :=
  Only.interpret (fun a ha => (Only.one ha : (Reporting.access a).Only _ H)) hp

theorem report_only (level : Level) (target message : String) :
    (report level target message).Only (Reporting.Within P) H :=
  Only.one (I := Reporting) (r := .report _) trivial

/-- Finding the screen changes no cursor: the registers of the controller are only read. -/
theorem Screen.init_only (hread : ∀ address, P (.readCell address))
    (hwrite : ∀ address cell, P (.writeCell address cell))
    (hindex : ∀ a value, P (.writeReg (.crtcIndex a) value))
    (hdata : ∀ a, P (.readReg (.crtcData a))) (s : Screen) :
    s.init.Only (Reporting.Within P) H :=
  Only.bind (probe_only hread hwrite).unreported fun adapter =>
    Only.bind (report_only _ _ _) fun _ =>
      Only.bind (hardwareCursor_only hindex hdata adapter).unreported fun _ => Only.pure

/-- The accesses of a console that reads: it looks at its input devices, and may be
    asked to reset the machine. -/
structure Looks (P : Access → Prop) : Prop where
  uart : ∀ base r, P (.readReg (.uart base r))
  keyboardStatus : ∀ p, P (.readReg (.keyboardStatus p))
  keyboardData : ∀ p, P (.readReg (.keyboardData p))
  reset : ∀ value, P (.writeReg .systemControl value)

/-- A scan code that asks for a reset is reported before the machine is reset. -/
theorem Keyboard.handle_only (hreset : ∀ value, P (.writeReg .systemControl value)) (k : Keyboard)
    (scancode : UInt8) : (k.handle scancode).Only (Reporting.Within P) H := by
  unfold Keyboard.handle
  refine Only.ite (Only.bind (report_only _ _ _) fun _ => ?_) Only.pure
  exact Only.bind (Only.unreported (Only.one (hreset _))) fun _ => Only.pure

/-- A look at the keyboard reads its two registers. -/
theorem Keyboard.poll_only {k : Keyboard} (hstatus : P (.readReg (.keyboardStatus k.statusPort)))
    (hdata : P (.readReg (.keyboardData k.dataPort)))
    (hreset : ∀ value, P (.writeReg .systemControl value)) :
    k.poll.Only (Reporting.Within P) H := by
  refine Only.bind (Only.unreported (Only.one hstatus)) fun _ => Only.ite Only.pure ?_
  refine Only.bind (Only.unreported (Only.one hdata)) fun scancode => ?_
  exact Only.bind (k.handle_only hreset scancode) fun _ => Only.pure

/-- The accesses of a console that writes: it asks whether its devices can take a
    byte, waits, and writes. It may halt where the cursor leaves its range. -/
structure Writes (P : Access → Prop) (H : Halt → Prop := fun _ => True) : Prop where
  cursorRange : H .cursorRange
  delay : P (.readReg .diagnostic)
  uartStatus : ∀ base, P (.readReg (.uart base .lineStatus))
  uartByte : ∀ base byte, P (.writeReg (.uart base .transmit) byte)
  printerStatus : ∀ base, P (.readReg (.printer base .status))
  printerByte : ∀ base byte, P (.writeReg (.printer base .data) byte)
  printerControl : ∀ base byte, P (.writeReg (.printer base .control) byte)
  cellRead : ∀ address, P (.readCell address)
  cellWrite : ∀ address cell, P (.writeCell address cell)
  crtcIndex : ∀ a value, P (.writeReg (.crtcIndex a) value)
  crtcData : ∀ a value, P (.writeReg (.crtcData a) value)

theorem looks_true : Looks fun _ => True := by
  constructor <;> intros <;> trivial

theorem writes_true (hrange : H .cursorRange) : Writes (fun _ => True) H := by
  constructor
  · exact hrange
  all_goals intros; trivial

/-- The drivers ask for no lock, so nothing they run into is one waited for. -/
theorem writes_without_deadlock : Writes (fun _ => True) (· ≠ .deadlock) :=
  writes_true nofun

namespace Console

/-- A byte of output goes to each of the three devices. -/
theorem output_only (hP : Writes P H) (c : Console) (byte : UInt8) : (c.output byte).Only P H := by
  refine Only.bind ?_ fun _ => Only.bind ?_ fun _ => Only.bind ?_ fun _ => Only.pure
  · exact Uart.transmit_only hP.delay (hP.uartStatus _) (hP.uartByte _) byte
  · exact Printer.transmit_only hP.delay (hP.printerStatus _) (hP.printerByte _)
      (hP.printerControl _) byte
  · exact Screen.putChar_only hP.cursorRange hP.cellRead hP.cellWrite hP.crtcIndex hP.crtcData _
      byte

theorem writeBytes_only (hP : Writes P H) (bytes : List UInt8) (c : Console) :
    (c.writeBytes bytes).Only P H := by
  induction bytes generalizing c with
  | nil => exact Only.pure
  | cons byte rest ih => exact Only.bind (output_only hP c byte) ih

theorem clearScreen_only (hP : Writes P H) (c : Console) : c.clearScreen.Only P H :=
  Only.bind (Screen.clear_only hP.cellWrite hP.crtcIndex hP.crtcData _) fun _ => Only.pure

/-- The serial port is looked at round after round until it has nothing more. -/
theorem serialInterrupt_only (hP : Looks P) (c : Console) : c.serialInterrupt.Only P H := by
  refine Only.ite (Only.iterate fun d => ?_) Only.pure
  refine Only.bind (Uart.tryReceive_only (hP.uart _)) fun byte? => ?_
  cases byte? <;> exact Only.pure

/-- The keyboard is looked at round after round until it has nothing more. -/
theorem keyboardInterrupt_only (hP : Looks P) (c : Console) :
    c.keyboardInterrupt.Only (Reporting.Within P) H := by
  refine Only.iterate fun d => ?_
  refine Only.bind (Keyboard.poll_only (hP.keyboardStatus _) (hP.keyboardData _) hP.reset)
    fun ⟨event?, _⟩ => ?_
  cases event? <;> exact Only.pure

/-- Taking a byte looks at both devices, and the queue is no device. -/
theorem input_only (hP : Looks P) (c : Console) : c.input.Only (Reporting.Within P) H :=
  Only.bind (serialInterrupt_only hP c).unreported fun c₁ =>
    Only.bind (keyboardInterrupt_only hP c₁) fun _ => Only.pure

/-- Waiting for a byte makes the accesses of taking one. -/
theorem blockingRead_only (hP : Looks P) (c : Console) :
    c.blockingRead.Only (Reporting.Within P) H := by
  refine Only.iterate fun d => Only.bind (input_only hP d) fun ⟨byte?, _⟩ => ?_
  -- Without a byte, or with a zero, it tries again.
  cases byte? with
  | none => exact Only.pure
  | some byte => exact Only.ite Only.pure Only.pure

/-- Bringing up a console looks at the keyboard, and writes the text that reports a missing
    serial port. -/
theorem init_only (hlooks : Looks P) (hwrites : Writes P H)
    (huart : ∀ base r value, P (.writeReg (.uart base r) value))
    (hcursor : ∀ a, P (.readReg (.crtcData a))) (c : Console) :
    c.init.Only (Reporting.Within P) H := by
  refine Only.bind (Screen.init_only hwrites.cellRead hwrites.cellWrite hwrites.crtcIndex hcursor
    c.screen) fun screen => ?_
  refine Only.bind (keyboardInterrupt_only hlooks { c with screen }) fun c₁ => ?_
  refine Only.bind (Uart.init_only (fun _ _ _ => huart _ _ _) (hlooks.uart _)).unreported
    fun uart => Only.ite Only.pure ?_
  exact Only.bind (report_only _ _ _) fun _ => (writeBytes_only hwrites _ _).unreported

/-- A byte that edits a line is echoed by at most one byte. -/
theorem edit_only (hP : Writes P H) (c : Console) (b : LineBuffer) (byte : UInt8) :
    (c.edit b byte).Only P H := by
  unfold edit
  cases b.editFor byte with
  | ignore => exact Only.pure
  -- Whatever else the byte does to the line, one byte of output shows it.
  | _ => exact Only.bind (output_only hP c _) fun _ => Only.pure

/-- A line is read byte by byte, each echoed before the next is waited for. -/
theorem readLine_only (hlooks : Looks P) (hwrites : Writes P H) (c : Console)
    (prompt : Option String) (buffer : Array UInt8) :
    (c.readLine prompt buffer).Only (Reporting.Within P) H := by
  refine Only.bind (Only.unreported ?_) fun c₁ =>
    Only.bind (Only.iterate fun ⟨d, b⟩ => ?_) fun _ => Only.pure
  · cases prompt with
    | none => exact Only.pure
    | some text => exact writeBytes_only hwrites (utf8 text) c
  · exact Only.bind (blockingRead_only hlooks d) fun ⟨byte, d'⟩ =>
      (edit_only hwrites d' b byte).unreported

end Console

/-- Writing out a backlog makes the accesses of its bytes. -/
theorem Backlog.flushInto_only (hP : Writes P H) (b : Backlog) (c : Console) :
    (b.flushInto c).Only P H :=
  Only.bind (Console.writeBytes_only hP _ c) fun _ => Only.pure

end KernelConsole
