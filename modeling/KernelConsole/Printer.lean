import KernelConsole.Hardware.Delay
import KernelConsole.Settings

/-!
# Printer

A printer on a Centronics-style parallel port: bytes go out, and nothing comes
back but whether it is busy. A byte is put on the data lines and latched by a
pulse of the strobe.

## Main definitions

* `Printer`: Where the printer is.
* `Printer.transmit`: Sending one byte.
-/

namespace KernelConsole

/-- A printer on a parallel port. -/
structure Printer where
  /-- The first port of its parallel port. -/
  base : UInt16
  /-- How often a busy printer is asked. -/
  spinLimit : UInt32
deriving DecidableEq

namespace Printer

/-- The driver for given settings. -/
def ofSettings (s : Settings) : Printer where
  base := s.printerBase
  spinLimit := s.spinLimit

/-- A register of this printer's port. -/
def reg (p : Printer) (r : PrinterRegister) : Register := .printer p.base r

/-- Status: the printer is not busy. -/
def ready : UInt8 := 0x80

/-- Control: selected and out of reset. -/
def selected : UInt8 := 0x08

/-- Control: selected, out of reset, and strobing. -/
def strobe : UInt8 := 0x0D

/-- Sends a byte. It is written and strobed even if the printer stays busy. -/
def transmit (p : Printer) (byte : UInt8) : Io Unit := do
  waitForBits p.spinLimit (p.reg .status) ready
  writeReg (p.reg .data) byte
  writeReg (p.reg .control) strobe
  writeReg (p.reg .control) selected

end Printer

end KernelConsole
