import KernelConsole.Hardware.Bus
import KernelConsole.Machine.Crtc
import KernelConsole.Machine.Memory

/-!
# Scripted PC

A PC whose devices can be placed anywhere and made to misbehave: a transmitter
that stays busy for a while after each byte or for ever, status bits that are
stuck at one, colour memory that is missing or loses bits, and input that only
arrives while somebody is looking for it.

## Main definitions

* `ScriptedPc`: Where the devices are, how they behave, and their state.
* `ScriptedPc.respond`: The PC as a bus.
* `ScriptedPc.isIdlePoll`: Somebody looks for a key and none will come.
-/

namespace KernelConsole

/-- Input that comes while the keyboard is polled. -/
structure Arrival where
  /-- Bytes for the UART. -/
  received : List UInt8 := []
  /-- Bytes for the keyboard controller. -/
  scancodes : List UInt8 := []

/-- A device that is busy for some polls after it is given a byte. -/
structure BusyLine where
  /-- For how many polls. A negative number is for ever. -/
  length : Int := 0
  /-- How many of them are left. -/
  left : Nat := 0

namespace BusyLine

/-- The device is given a byte. -/
def start (l : BusyLine) : BusyLine :=
  { l with left := l.length.toNat }

/-- Whether the device is ready, and the line after it was asked. -/
def poll (l : BusyLine) : Bool × BusyLine :=
  if l.length < 0 then (false, l)
  else match l.left with
    | 0 => (true, l)
    | left + 1 => (false, { l with left })

end BusyLine

/-- A PC whose devices follow a script. -/
structure ScriptedPc where
  /-- Where the UART is. -/
  uartPort : UInt16 := 0x3F8
  /-- Where the printer is. -/
  printerPort : UInt16 := 0x378
  /-- Where the keyboard controller tells its status. -/
  keyboardStatusPort : UInt16 := 0x64
  /-- Where the keyboard controller gives its bytes. -/
  keyboardDataPort : UInt16 := 0x60
  /-- There is a UART. -/
  uartPresent : Bool := true
  /-- The transmitter of the UART. -/
  transmitter : BusyLine := {}
  /-- Status bits of the UART that are stuck at one. -/
  lineStatusStuck : UInt8 := 0
  /-- The printer. -/
  printer : BusyLine := {}
  /-- Status bits of the printer that are stuck at one. -/
  printerStuck : UInt8 := 0
  /-- Status bits of the keyboard controller that are stuck at one. -/
  keyboardStuck : UInt8 := 0
  /-- There is memory where the colour adapter has its cells. -/
  colorPresent : Bool := true
  /-- What is read there if there is none. -/
  colorFloat : UInt16 := 0xFFFF
  /-- The bits of a cell that the memory there can hold. -/
  colorMask : UInt16 := 0xFFFF
  /-- Bytes that wait in the UART. -/
  received : List UInt8 := []
  /-- Scan codes that wait in the keyboard controller. -/
  scancodes : List UInt8 := []
  /-- Input to come, each when the keyboard is polled and has nothing. -/
  arrivals : List Arrival := []
  /-- The memory. -/
  memory : Memory := .empty
  /-- The display controllers. -/
  crtcs : CrtcBank := .empty

namespace ScriptedPc

/-- Where the controller of the colour adapter is. -/
def colorCrtcPort : UInt16 := 0x3D4

/-- Where the controller of the monochrome adapter is. -/
def monoCrtcPort : UInt16 := 0x3B4

/-- Where the cells of the colour adapter start. -/
def colorBuffer : Nat := 0xB8000

/-- Where the cells of the monochrome adapter start. -/
def monoBuffer : Nat := 0xB0000

/-- How many cells an adapter has. -/
def bufferCells : Nat := 2000

/-- What an empty bus floats to. -/
def floating : UInt8 := 0xFF

/-- The address is one of the colour adapter's. -/
def inColorBuffer (address : Nat) : Bool :=
  colorBuffer ≤ address && address < colorBuffer + 2 * bufferCells

/-- The port is at an offset from a base, in unbounded port numbers. -/
def isAt (port base : UInt16) (offset : Nat) : Bool :=
  port.toNat == base.toNat + offset

/-- The port is one of the UART's. -/
def inUart (pc : ScriptedPc) (port : UInt16) : Bool :=
  pc.uartPort.toNat ≤ port.toNat && port.toNat < pc.uartPort.toNat + 8

/-- The next input arrives. -/
def arrive (pc : ScriptedPc) : ScriptedPc :=
  match pc.arrivals with
  | [] => pc
  | next :: arrivals =>
    { pc with
      arrivals
      received := pc.received ++ next.received
      scancodes := pc.scancodes ++ next.scancodes }

/-- A read of the port asks the keyboard controller for its status. -/
def isKeyboardPoll (pc : ScriptedPc) (port : UInt16) : Bool :=
  port != 0x84 && port == pc.keyboardStatusPort

/-- A read of the port asks for a key where none waits and none will come. -/
def isIdlePoll (pc : ScriptedPc) (port : UInt16) : Bool :=
  pc.isKeyboardPoll port && pc.scancodes.isEmpty && pc.arrivals.isEmpty

/-- Reads a port. -/
def readPort (pc : ScriptedPc) (port : UInt16) : UInt8 × ScriptedPc :=
  if port = 0x84 then
    (floating, pc)
  else if port = pc.keyboardStatusPort then
    if pc.scancodes.isEmpty then
      (pc.keyboardStuck, pc.arrive)
    else
      (pc.keyboardStuck ||| 1, pc)
  else if port = pc.keyboardDataPort then
    (pc.scancodes.headD 0, { pc with scancodes := pc.scancodes.tail })
  else if pc.inUart port && !pc.uartPresent then
    (floating, pc)
  else if isAt port pc.uartPort 5 then
    let (ready, transmitter) := pc.transmitter.poll
    let waiting := if pc.received.isEmpty then 0x00 else 0x01
    let free := if ready then 0x60 else 0x00
    (pc.lineStatusStuck ||| waiting ||| free, { pc with transmitter })
  else if port = pc.uartPort then
    (pc.received.headD 0, { pc with received := pc.received.tail })
  else if isAt port pc.uartPort 2 then
    (0x01, pc)
  else if isAt port pc.printerPort 1 then
    let (ready, printer) := pc.printer.poll
    (pc.printerStuck ||| (if ready then 0x80 else 0x00), { pc with printer })
  else if port = colorCrtcPort + 1 ∨ port = monoCrtcPort + 1 then
    (pc.crtcs.readSelected (port - 1), pc)
  else
    (floating, pc)

/-- Writes a port. -/
def writePort (pc : ScriptedPc) (port : UInt16) (value : UInt8) : ScriptedPc :=
  if port = pc.uartPort then
    { pc with transmitter := pc.transmitter.start }
  else if port = pc.printerPort then
    { pc with printer := pc.printer.start }
  else if port = colorCrtcPort ∨ port = monoCrtcPort then
    { pc with crtcs := pc.crtcs.select port value }
  else if port = colorCrtcPort + 1 ∨ port = monoCrtcPort + 1 then
    { pc with crtcs := pc.crtcs.writeSelected (port - 1) value }
  else
    pc

/-- Reads a cell. -/
def readCell (pc : ScriptedPc) (address : Nat) : UInt16 :=
  if inColorBuffer address && !pc.colorPresent then pc.colorFloat
  else pc.memory.read address

/-- Writes a cell. -/
def writeCell (pc : ScriptedPc) (address : Nat) (cell : UInt16) : ScriptedPc :=
  if inColorBuffer address then
    if pc.colorPresent then
      { pc with memory := pc.memory.write address (cell &&& pc.colorMask) }
    else
      pc
  else
    { pc with memory := pc.memory.write address cell }

/-- The PC as a bus. -/
def respond : Bus ScriptedPc
  | .readReg r, pc => pc.readPort r.port
  | .writeReg r value, pc => ((), pc.writePort r.port value)
  | .readCell address, pc => (pc.readCell address, pc)
  | .writeCell address cell, pc => ((), pc.writeCell address cell)

/-- The cells of the text screen at a base address. -/
def screenCells (pc : ScriptedPc) (base : Nat) : List UInt16 :=
  (List.range bufferCells).map fun i => pc.memory.read (base + 2 * i)

end ScriptedPc

end KernelConsole
