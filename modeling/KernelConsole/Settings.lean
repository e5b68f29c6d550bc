/-!
# Settings

Where the devices sit and how they are driven, and which settings the hardware
can honour.

A UART derives its speed from a fixed clock through a sixteen-bit divisor, so a
line speed is usable exactly when it divides the clock and the quotient fits.
Settings are checked before any device is touched, in a fixed order, and the
first fault found is the one reported.

## Main definitions

* `Settings`: Ports, line speed and wait limit.
* `Settings.Fault`: Why settings are refused.
* `Settings.Fault.message`: Its wording.
* `Settings.divisor`: The divisor that gives the line speed.
* `Settings.validate`: The check that every console passes.
-/

namespace KernelConsole

/-- The speed a divisor of one selects. -/
def uartClock : UInt32 := 115200

/-- How many ports a UART answers at. -/
def uartSpan : Nat := 8

/-- How many ports a parallel port answers at. -/
def printerSpan : Nat := 3

/-- Where the devices sit and how they are driven. -/
structure Settings where
  /-- First port of the UART. -/
  uartBase : UInt16 := 0x3F8
  /-- First port of the parallel port. -/
  printerBase : UInt16 := 0x378
  /-- Speed of the serial line in bits per second. -/
  baud : UInt32 := 9600
  /-- How often a busy device is asked before a byte is sent anyway. -/
  spinLimit : UInt32 := 12800
  /-- Status port of the keyboard controller. -/
  keyboardStatus : UInt16 := 0x64
  /-- Data port of the keyboard controller. -/
  keyboardData : UInt16 := 0x60
  /-- Virtual address at which physical memory is mapped. -/
  physicalOffset : UInt64 := 0xF0000000
deriving DecidableEq

/-- Why settings are refused. The order of the causes is the order in which lists
    of them are sorted. -/
inductive Settings.Fault
  /-- A line speed of zero. -/
  | zeroBaud
  /-- A line speed above the clock. -/
  | baudTooHigh (baud : UInt32)
  /-- A line speed that does not divide the clock. -/
  | inexactBaud (baud : UInt32)
  /-- A line speed whose divisor needs more than sixteen bits. -/
  | baudTooLow (baud : UInt32)
  /-- A busy device would never be asked. -/
  | zeroSpinLimit
  /-- The UART and the parallel port share a port. -/
  | portOverlap (uart printer : UInt16)
deriving DecidableEq, Ord

/-- Outcomes of a check can be compared. -/
instance (priority := high) : DecidableEq (Except Settings.Fault Unit)
  | .ok (), .ok () => isTrue rfl
  | .error x, .error y => decidable_of_iff (x = y) ⟨congrArg Except.error, Except.error.inj⟩
  | .ok _, .error _ => isFalse nofun
  | .error _, .ok _ => isFalse nofun

namespace Settings

/-- The lower-case hexadecimal digits of a number, without leading zeros. -/
def hexDigits (n : Nat) : String :=
  String.ofList (Nat.toDigits 16 n)

/-- The wording of a fault. -/
def Fault.message : Fault → String
  | zeroBaud => "baud rate must be non-zero"
  | baudTooHigh baud => s!"baud rate {baud} exceeds 115200"
  | inexactBaud baud => s!"baud rate {baud} does not divide 115200"
  | baudTooLow baud => s!"baud rate {baud} is below the slowest divisor"
  | zeroSpinLimit => "busy-wait ceiling must be non-zero"
  | portOverlap uart printer =>
      "serial port 0x" ++ hexDigits uart.toNat ++ " overlaps parallel port 0x" ++
        hexDigits printer.toNat

/-- The faults of a list in order, without repetitions. -/
def Fault.sorted (faults : List Fault) : List Fault :=
  (faults.mergeSort fun a b => (compare a b).isLE).eraseReps

/-- The divisor that brings the clock down to the line speed, rounded down. -/
def divisor (s : Settings) : Except Fault UInt16 :=
  if s.baud = 0 then
    .error .zeroBaud
  else
    let quotient := uartClock / s.baud
    if quotient.toNat < UInt16.size then .ok quotient.toUInt16 else .error (.baudTooLow s.baud)

/-- The UART and the parallel port answer at a common port, in unbounded port
    numbers. -/
def PortsOverlap (s : Settings) : Prop :=
  s.uartBase.toNat < s.printerBase.toNat + printerSpan ∧
    s.printerBase.toNat < s.uartBase.toNat + uartSpan

instance (s : Settings) : Decidable s.PortsOverlap :=
  inferInstanceAs (Decidable (_ ∧ _))

/-- Checks settings for values that the hardware cannot honour. -/
def validate (s : Settings) : Except Fault Unit :=
  if s.baud = 0 then .error .zeroBaud
  else if uartClock < s.baud then .error (.baudTooHigh s.baud)
  else if uartClock % s.baud ≠ 0 then .error (.inexactBaud s.baud)
  else match s.divisor with
    | .error fault => .error fault
    | .ok _ =>
      if s.spinLimit = 0 then .error .zeroSpinLimit
      else if s.PortsOverlap then .error (.portOverlap s.uartBase s.printerBase)
      else .ok ()

end Settings

end KernelConsole
