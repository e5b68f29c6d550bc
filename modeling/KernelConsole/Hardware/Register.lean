/-!
# Device Registers

The registers of the console devices, and the I/O port of each.

A register is named for what it is, and a port is where it is reached. The two
are not the same: a UART answers to reads and writes of its first port with
different registers, and to either with half of its divisor while the divisor
latch is open. A driver says which register it means, and only the port goes out
on the bus.

Ports are sixteen bits and wrap, so a device that sits at the very top of the
port range reaches around to the bottom.

## Main definitions

* `UartRegister`, `PrinterRegister`: The registers of a serial and of a parallel
  port.
* `Adapter`: The two text adapters.
* `Register`: A register of any console device.
* `Register.port`: Where it is reached.
-/

namespace KernelConsole

/-- A register of a UART. -/
inductive UartRegister
  | receive
  | transmit
  | divisorLow
  | divisorHigh
  /-- Which interrupts are on. -/
  | interruptEnable
  /-- Which interrupt is pending. -/
  | interruptId
  | queueControl
  | lineControl
  | modemControl
  | lineStatus
deriving DecidableEq

/-- How far a register of a UART is from its first port. -/
def UartRegister.offset : UartRegister → UInt16
  | receive => 0
  | transmit => 0
  | divisorLow => 0
  | divisorHigh => 1
  | interruptEnable => 1
  | interruptId => 2
  | queueControl => 2
  | lineControl => 3
  | modemControl => 4
  | lineStatus => 5

/-- A register of a parallel port. -/
inductive PrinterRegister
  | data
  | status
  | control
deriving DecidableEq

/-- How far a register of a parallel port is from its first port. -/
def PrinterRegister.offset : PrinterRegister → UInt16
  | data => 0
  | status => 1
  | control => 2

/-- A text adapter. -/
inductive Adapter
  | color
  | monochrome
deriving DecidableEq

namespace Adapter

/-- The name of an adapter. -/
def name : Adapter → String
  | color => "Color"
  | monochrome => "Monochrome"

/-- The physical address of its first cell. -/
def buffer : Adapter → Nat
  | color => 0xB8000
  | monochrome => 0xB0000

/-- The first port of its display controller. -/
def crtcPort : Adapter → UInt16
  | color => 0x3D4
  | monochrome => 0x3B4

/-- The physical address of a cell. -/
def cellAddress (a : Adapter) (pos : Nat) : Nat := a.buffer + 2 * pos

end Adapter

/-- A register of a console device. -/
inductive Register
  /-- A register of the UART at a base port. -/
  | uart (base : UInt16) (r : UartRegister)
  /-- A register of the parallel port at a base port. -/
  | printer (base : UInt16) (r : PrinterRegister)
  /-- The number of the display controller's register that is selected. -/
  | crtcIndex (a : Adapter)
  | crtcData (a : Adapter)
  | keyboardStatus (port : UInt16)
  | keyboardData (port : UInt16)
  /-- The diagnostic register, which is read to pass the time. -/
  | diagnostic
  /-- The system control register, which resets the machine. -/
  | systemControl
  /-- Whatever is at a port. -/
  | bare (port : UInt16)
deriving DecidableEq

/-- The port of a register. -/
def Register.port : Register → UInt16
  | uart base r => base + r.offset
  | printer base r => base + r.offset
  | crtcIndex a => a.crtcPort
  | crtcData a => a.crtcPort + 1
  | keyboardStatus port => port
  | keyboardData port => port
  | diagnostic => 0x84
  | systemControl => 0x92
  | bare port => port

end KernelConsole
