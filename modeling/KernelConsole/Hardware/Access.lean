import KernelConsole.Hardware.Register
import KernelConsole.Program.Basic

/-!
# Device Accesses

What a driver can do to the hardware: read or write a byte of a device register,
and read or write a sixteen-bit character cell of physical memory. `Io` is a
program made of those four requests and no others.

An access and its reply together are an `Event`. A list of events is the trace
that statements about exact device traffic are made of. A logic analyser would
record the same trace with every register replaced by its port, which is
`Event.onBus`.

## Main definitions

* `Access`: One access to a register or a cell.
* `Hardware`: The interface of accesses.
* `Io`: A program that only accesses hardware.
* `readReg`, `writeReg`, `readCell`, `writeCell`: The programs of one access.
* `Event`: An access together with its reply.
* `Event.onBus`: What is seen of it on the bus.
-/

namespace KernelConsole

/-- One access to the hardware. -/
inductive Access
  /-- Read a register. -/
  | readReg (r : Register)
  /-- Write a register. -/
  | writeReg (r : Register) (value : UInt8)
  /-- Read the cell at a physical address. -/
  | readCell (address : Nat)
  /-- Write the cell at a physical address. -/
  | writeCell (address : Nat) (cell : UInt16)
deriving DecidableEq

/-- The access goes to a port, and not to memory. -/
def Access.isPort : Access → Bool
  | readReg _ => true
  | writeReg _ _ => true
  | readCell _ => false
  | writeCell _ _ => false

/-- What the hardware answers to an access: the value read, or nothing. -/
@[reducible] def Access.Reply : Access → Type
  | readReg _ => UInt8
  | writeReg _ _ => Unit
  | readCell _ => UInt16
  | writeCell _ _ => Unit

/-- The interface of device accesses. -/
@[reducible] def Hardware : Interface where
  Request := Access
  Reply := Access.Reply

/-- A program that only accesses hardware. -/
abbrev Io : Type → Type 1 := Prog Hardware

/-- Reads a register. -/
def readReg (r : Register) : Io UInt8 :=
  .call (.readReg r) .done

/-- Writes a register. -/
def writeReg (r : Register) (value : UInt8) : Io Unit :=
  .call (.writeReg r value) .done

/-- Reads the cell at a physical address. -/
def readCell (address : Nat) : Io UInt16 :=
  .call (.readCell address) .done

/-- Writes the cell at a physical address. -/
def writeCell (address : Nat) (cell : UInt16) : Io Unit :=
  .call (.writeCell address cell) .done

/-- An access together with the value that was read or written. -/
inductive Event
  /-- `value` was read from a register. -/
  | regRead (r : Register) (value : UInt8)
  /-- `value` was written to a register. -/
  | regWrite (r : Register) (value : UInt8)
  /-- `cell` was read at `address`. -/
  | cellRead (address : Nat) (cell : UInt16)
  /-- `cell` was written at `address`. -/
  | cellWrite (address : Nat) (cell : UInt16)
deriving DecidableEq

namespace Event

/-- The event of an access that was answered with a reply. -/
def of : (a : Access) → a.Reply → Event
  | .readReg r, value => .regRead r value
  | .writeReg r value, _ => .regWrite r value
  | .readCell address, cell => .cellRead address cell
  | .writeCell address cell, _ => .cellWrite address cell

/-- What is seen of an event on the bus, where a register is only a port. -/
def onBus : Event → Event
  | regRead r value => regRead (.bare r.port) value
  | regWrite r value => regWrite (.bare r.port) value
  | e => e

/-- The port and byte of a port write. -/
def portWrite? : Event → Option (UInt16 × UInt8)
  | regWrite r value => some (r.port, value)
  | _ => none

/-- The port of a port read. -/
def portRead? : Event → Option UInt16
  | regRead r _ => some r.port
  | _ => none

end Event

end KernelConsole
