import KernelConsole.Keyboard.Controller
import KernelConsole.Printer
import KernelConsole.Ring
import KernelConsole.Screen.Basic
import KernelConsole.Uart

/-!
# Console

Every console device at once. A byte that is written goes to the serial port, the
printer and the screen, in that order. Bytes from the serial port and the
keyboard meet in one queue, which the interrupts fill and a reader empties.

A reader fills the queue itself before it takes a byte, so reading works with
interrupts off. Zero is never queued.

## Main definitions

* `Console`: The devices and the queue.
* `Console.ofSettings`: A console for settings that pass the check.
* `Console.init`: Bringing up the devices.
* `Console.output`, `Console.writeBytes`, `Console.writeText`: Writing.
* `Console.serialInterrupt`, `Console.keyboardInterrupt`: Filling the queue.
* `Console.input`, `Console.blockingRead`: Taking a byte, and waiting for one.

## Theorems

* `Console.ofSettings_eq_ok`: A console that was just made.
-/

namespace KernelConsole

/-- The console devices and the bytes that wait to be read. -/
structure Console where
  /-- The serial port. -/
  uart : Uart
  /-- The printer. -/
  printer : Printer
  /-- The text screen. -/
  screen : Screen
  /-- The keyboard. -/
  keyboard : Keyboard
  /-- The bytes that wait to be read. -/
  queue : ByteQueue
deriving DecidableEq

namespace Console

/-- A console for given settings, if the hardware can honour them. No device is
    touched. -/
def ofSettings (s : Settings) : Except Settings.Fault Console :=
  match s.validate with
  | .error fault => .error fault
  | .ok () => match Uart.ofSettings s with
    | .error fault => .error fault
    | .ok uart => .ok
        { uart
          printer := Printer.ofSettings s
          screen := {}
          keyboard := Keyboard.ofSettings s
          queue := Ring.empty }

/-- What a console is made of: drivers whose hardware was not touched yet. -/
theorem ofSettings_eq_ok {s : Settings} {c : Console} (h : ofSettings s = .ok c) :
    s.validate = .ok () ∧ ∃ uart, Uart.ofSettings s = .ok uart ∧
      c = { uart, printer := Printer.ofSettings s, screen := {},
            keyboard := Keyboard.ofSettings s, queue := Ring.empty } := by
  unfold ofSettings at h
  cases hvalid : s.validate with
  | error fault =>
      rw [hvalid] at h
      cases h
  | ok =>
      cases huart : Uart.ofSettings s with
      | error fault =>
          rw [hvalid, huart] at h
          cases h
      | ok uart =>
          rw [hvalid, huart] at h
          cases h
          exact ⟨rfl, uart, rfl, rfl⟩

/-- Writes a byte to every output device. -/
def output (c : Console) (byte : UInt8) : Io Console := do
  c.uart.transmit byte
  c.printer.transmit byte
  let screen ← c.screen.putChar byte
  pure { c with screen }

/-- Writes bytes in order. -/
def writeBytes (c : Console) : List UInt8 → Io Console
  | [] => pure c
  | byte :: rest => do
      let c ← c.output byte
      c.writeBytes rest

/-- Writes a text. -/
def writeText (c : Console) (text : String) : Io Console :=
  c.writeBytes (utf8 text)

/-- Queues a byte, unless it is zero. -/
def enqueue (c : Console) (byte : UInt8) : Console :=
  if byte = 0 then c else { c with queue := c.queue.push byte }

/-- Queues the byte of an event, if it has one. -/
def enqueueEvent (c : Console) (event : KeyEvent) : Console :=
  match event.byte? with
  | some byte => c.enqueue byte
  | none => c

/-- Queues every byte that waits in the serial port. Nothing is done for a port
    that did not answer when it was programmed. -/
def serialInterrupt (c : Console) : Io Console :=
  if c.uart.present then
    .iterate
      (fun c : Console => do
        match ← c.uart.tryReceive with
        | none => pure (.inr c)
        | some byte => pure (.inl (c.enqueue byte)))
      c
  else
    pure c

/-- Decodes every byte that waits in the keyboard controller and queues what the
    keys mean. -/
def keyboardInterrupt (c : Console) : LoggedIo Console :=
  .iterate
    (fun c : Console => do
      let (event?, keyboard) ← c.keyboard.poll
      let c := { c with keyboard }
      match event? with
      | none => pure (.inr c)
      | some event => pure (.inl (c.enqueueEvent event)))
    c

/-- What is written when no serial port answers. -/
def serialMissingText : String := "Serial port does not exist!\n"

/-- Brings up the screen, empties the keyboard into the queue, and brings up the
    serial port. A serial port that is missing is reported and no fault. -/
def init (c : Console) : LoggedIo Console := do
  let screen ← c.screen.init
  let c ← keyboardInterrupt { c with screen }
  let uart ← c.uart.init
  let c := { c with uart }
  if c.uart.present then
    pure c
  else do
    report .warn "pc_console::console" "serial port does not exist"
    c.writeText serialMissingText

/-- Takes the oldest byte that waits, after looking at both input devices. -/
def input (c : Console) : LoggedIo (Option UInt8 × Console) := do
  let c ← c.serialInterrupt
  let c ← c.keyboardInterrupt
  let (byte?, queue) := c.queue.pop
  pure (byte?, { c with queue })

/-- Looks at the input devices until there is a byte to take. -/
def blockingRead (c : Console) : LoggedIo (UInt8 × Console) :=
  .iterate
    (fun c : Console => do
      let (byte?, c) ← c.input
      match byte? with
      | some byte => if byte = 0 then pure (.inl c) else pure (.inr (byte, c))
      | none => pure (.inl c))
    c

/-- Chooses how the next characters are drawn. -/
def setColor (c : Console) (foreground background : Color) : Console :=
  { c with screen := c.screen.setColor foreground background }

/-- Blanks the screen. -/
def clearScreen (c : Console) : Io Console := do
  let screen ← c.screen.clear
  pure { c with screen }

/-- Writes the line of a record. -/
def writeRecord (c : Console) (r : Record) : Io Console :=
  c.writeText r.line

end Console

end KernelConsole
