import KernelConsole.Keyboard.Decoder
import KernelConsole.Log.Reporting
import KernelConsole.Settings

/-!
# Keyboard Controller

The controller has a status register that says whether a byte is waiting and a
data register that gives it. Each byte goes through the decoder, and control,
alternate and delete together reset the machine at once, through the system
control register.

## Main definitions

* `Keyboard`: Where the controller is, and the state of the decoder.
* `Keyboard.poll`: Reading and decoding one byte.
-/

namespace KernelConsole

/-- A keyboard controller with the decoder of its bytes. -/
structure Keyboard where
  /-- The port that says whether a byte is waiting. -/
  statusPort : UInt16
  /-- The port that gives it. -/
  dataPort : UInt16
  /-- What the bytes so far leave behind. -/
  decoder : Decoder
deriving DecidableEq

namespace Keyboard

/-- The driver for given settings, with no key held. -/
def ofSettings (s : Settings) : Keyboard where
  statusPort := s.keyboardStatus
  dataPort := s.keyboardData
  decoder := {}

/-- The modifiers held and locked. -/
def modifiers (k : Keyboard) : Modifiers := k.decoder.modifiers

/-- Status: a byte is waiting. -/
def waiting : UInt8 := 0x01

/-- System control: reset the machine. -/
def resetMachine : UInt8 := 0x03

/-- Decodes a byte, resetting the machine if it asks for that. -/
def handle (k : Keyboard) (scancode : UInt8) : LoggedIo (KeyEvent × Keyboard) := do
  let (event, decoder) := k.decoder.feed scancode
  let (reset, decoder) := decoder.takeReset
  if reset then
    report .debug "pc_console::keyboard" "ctrl-alt-del: resetting"
    writeReg .systemControl resetMachine
  pure (event, { k with decoder })

/-- Reads and decodes a byte if one is waiting. The event is there for every byte
    that was read, also one that means nothing. -/
def poll (k : Keyboard) : LoggedIo (Option KeyEvent × Keyboard) := do
  let status ← readReg (.keyboardStatus k.statusPort)
  if status &&& waiting = 0 then
    pure (none, k)
  else do
    let scancode ← readReg (.keyboardData k.dataPort)
    let (event, k) ← k.handle scancode
    pure (some event, k)

end Keyboard

end KernelConsole
