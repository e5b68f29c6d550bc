import KernelConsole.Hardware.Delay
import KernelConsole.Settings

/-!
# UART

The serial port: a 16550 UART at a base port. It is programmed for eight data
bits without parity at the speed its divisor gives, with the receive interrupt
on, and it counts as absent until its status says otherwise. An empty socket
floats high, so a status of all ones means nobody is there.

## Main definitions

* `Uart`: Where the UART is, and whether it answered.
* `Uart.ofSettings`: The driver, before the hardware is touched.
* `Uart.init`: Programming the UART and looking whether it is there.
* `Uart.tryReceive`, `Uart.transmit`: One byte in, one byte out.

## Theorems

* `Uart.ofSettings_eq_ok`: A driver that was just made.
-/

namespace KernelConsole

/-- A UART at a base port. -/
structure Uart where
  /-- Its first port. -/
  base : UInt16
  /-- The divisor for the speed of the line. -/
  divisor : UInt16
  /-- How often a busy transmitter is asked. -/
  spinLimit : UInt32
  /-- It answered when it was programmed. -/
  present : Bool
deriving DecidableEq

namespace Uart

/-- The driver for settings whose line speed has a divisor. -/
def ofSettings (s : Settings) : Except Settings.Fault Uart :=
  match s.divisor with
  | .error fault => .error fault
  | .ok divisor =>
    .ok { base := s.uartBase, divisor, spinLimit := s.spinLimit, present := false }

/-- A driver that was just made has the divisor of its settings, and has found nothing. -/
theorem ofSettings_eq_ok {s : Settings} {u : Uart} (h : ofSettings s = .ok u) :
    ∃ divisor, s.divisor = .ok divisor ∧
      u = { base := s.uartBase, divisor, spinLimit := s.spinLimit, present := false } := by
  unfold ofSettings at h
  cases hdivisor : s.divisor with
  | error fault =>
      rw [hdivisor] at h
      cases h
  | ok divisor =>
      rw [hdivisor] at h
      cases h
      exact ⟨divisor, rfl, rfl⟩

/-- A register of this UART. -/
def reg (u : Uart) (r : UartRegister) : Register := .uart u.base r

/-- Line control: the divisor latch is open. -/
def latchOpen : UInt8 := 0x80

/-- Line control: eight data bits, one stop bit, no parity, the latch closed. -/
def eightDataBits : UInt8 := 0x03

/-- Interrupt enable: a byte has been received. -/
def onReceive : UInt8 := 0x01

/-- Line status: a received byte is waiting. -/
def received : UInt8 := 0x01

/-- Line status: the transmitter can take a byte. -/
def transmitReady : UInt8 := 0x20

/-- Programs the UART and looks whether it is there. If it is, the interrupt and
    the byte that an earlier owner left behind are thrown away. -/
def init (u : Uart) : Io Uart := do
  writeReg (u.reg .queueControl) 0
  writeReg (u.reg .lineControl) latchOpen
  writeReg (u.reg .divisorLow) u.divisor.toUInt8
  writeReg (u.reg .divisorHigh) (u.divisor >>> 8).toUInt8
  writeReg (u.reg .lineControl) eightDataBits
  writeReg (u.reg .modemControl) 0
  writeReg (u.reg .interruptEnable) onReceive
  let status ← readReg (u.reg .lineStatus)
  if status = 0xFF then
    pure { u with present := false }
  else do
    let _ ← readReg (u.reg .interruptId)
    let _ ← readReg (u.reg .receive)
    pure { u with present := true }

/-- The next received byte, if one is waiting. -/
def tryReceive (u : Uart) : Io (Option UInt8) := do
  let status ← readReg (u.reg .lineStatus)
  if status &&& received = 0 then
    pure none
  else do
    let byte ← readReg (u.reg .receive)
    pure (some byte)

/-- Sends a byte. It is written even if the transmitter stays busy. -/
def transmit (u : Uart) (byte : UInt8) : Io Unit := do
  waitForBits u.spinLimit (u.reg .lineStatus) transmitReady
  writeReg (u.reg .transmit) byte

end Uart

end KernelConsole
