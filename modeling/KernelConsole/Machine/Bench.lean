import KernelConsole.Hardware.Bus
import KernelConsole.Machine.Crtc
import KernelConsole.Machine.Memory

/-!
# Bench

A PC in memory with every console device, as a bench to try the drivers on. Each
device is there or not and ready or not, and stays so until it is told
otherwise. The bench keeps every port that was read and every byte that was
written.

The devices sit at the standard ports, whatever settings a driver has.

## Main definitions

* `Bench`: The devices, their queues, the memory and the traffic.
* `Bench.respond`: The bench as a bus.
* `Bench.writesTo`, `Bench.readsOf`: Traffic of one port.
* `Bench.rowText`: A row of a text screen.

## Theorems

* `Bench.readPort_state`, `Bench.writePort_state`: All that an access to a port can change.
-/

namespace KernelConsole

/-- A PC in memory. -/
structure Bench where
  /-- Every port write, oldest first. -/
  writes : Array (UInt16 × UInt8) := #[]
  /-- Every port that was read, oldest first. -/
  reads : Array UInt16 := #[]
  /-- Reads of the diagnostic port. -/
  delays : Nat := 0
  /-- Scan codes that wait in the keyboard controller. -/
  scancodes : List UInt8 := []
  /-- Bytes that wait in the UART. -/
  received : List UInt8 := []
  /-- There is a UART. -/
  uartPresent : Bool := true
  /-- The UART can take a byte to send. -/
  transmitReady : Bool := true
  /-- The printer can take a byte. -/
  printerReady : Bool := true
  /-- There is memory where the colour adapter has its cells. -/
  colorPresent : Bool := true
  /-- The memory. -/
  memory : Memory := .empty
  /-- The display controllers. -/
  crtcs : CrtcBank := .empty

namespace Bench

/-- Where the UART is. -/
def uartPort : UInt16 := 0x3F8

/-- Where the printer is. -/
def printerPort : UInt16 := 0x378

/-- Where the keyboard controller tells its status. -/
def keyboardStatusPort : UInt16 := 0x64

/-- Where the keyboard controller gives its bytes. -/
def keyboardDataPort : UInt16 := 0x60

/-- Where the controller of the colour adapter is. -/
def colorCrtcPort : UInt16 := 0x3D4

/-- Where the controller of the monochrome adapter is. -/
def monoCrtcPort : UInt16 := 0x3B4

/-- Where the machine is reset. -/
def resetPort : UInt16 := 0x92

/-- Where the cells of the colour adapter start. -/
def colorBuffer : Nat := 0xB8000

/-- Where the cells of the monochrome adapter start. -/
def monoBuffer : Nat := 0xB0000

/-- How many bytes the cells of an adapter take. -/
def bufferBytes : Nat := 4000

/-- What an empty bus floats to. -/
def floating : UInt8 := 0xFF

/-- The address is one of the colour adapter's. -/
def inColorBuffer (address : Nat) : Bool :=
  colorBuffer ≤ address && address < colorBuffer + bufferBytes

/-- The status of the UART. -/
def lineStatus (b : Bench) : UInt8 :=
  (if b.received.isEmpty then 0x00 else 0x01) ||| (if b.transmitReady then 0x60 else 0x00)

/-- Reads a port, leaving out the record of it. -/
def portValue (b : Bench) (port : UInt16) : UInt8 × Bench :=
  if port = 0x84 then
    (floating, { b with delays := b.delays + 1 })
  else if port = keyboardStatusPort then
    (if b.scancodes.isEmpty then 0 else 1, b)
  else if port = keyboardDataPort then
    (b.scancodes.headD 0, { b with scancodes := b.scancodes.tail })
  else if uartPort ≤ port ∧ port < uartPort + 8 ∧ !b.uartPresent then
    (floating, b)
  else if port = uartPort + 5 then
    (b.lineStatus, b)
  else if port = uartPort then
    (b.received.headD 0, { b with received := b.received.tail })
  else if port = uartPort + 2 then
    (0x01, b)
  else if port = printerPort + 1 then
    (if b.printerReady then 0x80 else 0x00, b)
  else if port = colorCrtcPort + 1 ∨ port = monoCrtcPort + 1 then
    (b.crtcs.readSelected (port - 1), b)
  else
    (floating, b)

/-- Reads a port. -/
def readPort (b : Bench) (port : UInt16) : UInt8 × Bench :=
  { b with reads := b.reads.push port }.portValue port

/-- Writes a port. -/
def writePort (b : Bench) (port : UInt16) (value : UInt8) : Bench :=
  let b := { b with writes := b.writes.push (port, value) }
  if port = colorCrtcPort ∨ port = monoCrtcPort then
    { b with crtcs := b.crtcs.select port value }
  else if port = colorCrtcPort + 1 ∨ port = monoCrtcPort + 1 then
    { b with crtcs := b.crtcs.writeSelected (port - 1) value }
  else
    b

/-- A read of a port is noted. It may count a delay, and it takes a byte off a device if it is
    at the port for that. All else stays. -/
theorem readPort_state (b : Bench) (port : UInt16) : ∃ delays scancodes received,
    (b.readPort port).2 =
        { b with reads := b.reads.push port, delays, scancodes, received } ∧
      (port ≠ keyboardDataPort → scancodes = b.scancodes) ∧
      (port ≠ uartPort → received = b.received) := by
  unfold readPort portValue
  -- Splitting the goal would rewrite all of it, for every branch that is left.
  repeat' apply iteInduction (motive := fun v : UInt8 × Bench =>
    ∃ delays scancodes received,
      v.2 = { b with reads := b.reads.push port, delays, scancodes, received } ∧
        (port ≠ keyboardDataPort → scancodes = b.scancodes) ∧
        (port ≠ uartPort → received = b.received)) <;> intro hport
  all_goals first
    | exact ⟨_, _, _, rfl, fun _ => rfl, fun _ => rfl⟩
    | exact ⟨_, _, _, rfl, fun hother => absurd hport hother, fun _ => rfl⟩
    | exact ⟨_, _, _, rfl, fun _ => rfl, fun hother => absurd hport hother⟩

/-- A write to a port is noted, and a display controller may take it. All else stays. -/
theorem writePort_state (b : Bench) (port : UInt16) (value : UInt8) : ∃ crtcs,
    b.writePort port value = { b with writes := b.writes.push (port, value), crtcs } := by
  unfold writePort
  repeat' apply iteInduction (motive := fun b' : Bench => ∃ crtcs,
    b' = { b with writes := b.writes.push (port, value), crtcs }) <;> intro
  all_goals exact ⟨_, rfl⟩

/-- Reads a cell. Where there is no memory the bus floats. -/
def readCell (b : Bench) (address : Nat) : UInt16 :=
  if inColorBuffer address && !b.colorPresent then 0xFFFF else b.memory.read address

/-- Writes a cell. Where there is no memory nothing happens. -/
def writeCell (b : Bench) (address : Nat) (cell : UInt16) : Bench :=
  if inColorBuffer address && !b.colorPresent then
    b
  else
    { b with memory := b.memory.write address cell }

/-- The bench as a bus. -/
def respond : Bus Bench
  | .readReg r, b => b.readPort r.port
  | .writeReg r value, b => ((), b.writePort r.port value)
  | .readCell address, b => (b.readCell address, b)
  | .writeCell address cell, b => ((), b.writeCell address cell)

/-- The bytes written to a port, oldest first. -/
def writesTo (b : Bench) (port : UInt16) : List UInt8 :=
  b.writes.toList.filterMap fun (p, value) => if p = port then some value else none

/-- How often a port was read. -/
def readsOf (b : Bench) (port : UInt16) : Nat :=
  b.reads.toList.countP fun p => p == port

/-- A cell of the text screen at a base address, whether there is memory or
    not. -/
def cell (b : Bench) (base index : Nat) : UInt16 :=
  b.memory.read (base + 2 * index)

/-- The characters of a row, each low byte as the character of that number. -/
def rowText (b : Bench) (base row : Nat) : String :=
  String.ofList <| (List.range 80).map fun column =>
    Char.ofNat ((b.cell base (80 * row + column)).toNat % 256)

/-- Forgets the traffic. -/
def forgetTraffic (b : Bench) : Bench :=
  { b with writes := #[], reads := #[], delays := 0 }

end Bench

end KernelConsole
