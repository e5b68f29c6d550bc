import KernelConsole.Console.LineEditor
import KernelConsole.Log.Record

/-!
# Kernel Operations

What can happen to a running kernel, as data: the calls that the rest of the
kernel makes, the interrupts that are set to come, and what somebody outside does
to the machine meanwhile. An operation is what an interrupt runs, what a sequence
of calls is made of, and what a message may run while it is written.

The machine is a parameter, since only what is done from outside looks into it.

## Main definitions

* `Kernel.Result`: What an operation returns.
* `Kernel.Op`: An operation.
* `Kernel.Message`: A message that may run operations.
-/

namespace KernelConsole

namespace Kernel

/-- What an operation returns. -/
inductive Result
  | nothing
  | settled (outcome : Except Settings.Fault Unit)
  /-- The byte of each of several reads. -/
  | bytes (bytes : List (Option UInt8))
  /-- The byte of one read. -/
  | byte (byte : Option UInt8)
  | line (line : Option LineBuffer)
  | flag (b : Bool)
  | cells (cells : List UInt16)
deriving DecidableEq

mutual

/-- An operation on a kernel that runs on a machine with states `σ`. -/
inductive Op (σ : Type)
  | init (settings : Settings)
  /-- Writes bytes, one call for each. -/
  | output (bytes : List UInt8)
  /-- Takes bytes, one call for each. -/
  | input (count : Nat)
  | getByte
  | readLine (prompt : Option String) (buffer : Array UInt8)
  /-- The serial port has a byte. -/
  | serialInterrupt
  /-- The keyboard has a byte. -/
  | keyboardInterrupt
  | setColor (foreground background : Color)
  | clearScreen
  | print (text : String)
  | installLogger (filter : Filter)
  | setFilter (filter : Filter)
  | log (level : Level) (target : String) (message : Message σ)
  | logEnabled (level : Level)
  /-- Writes out what the logger has kept back. -/
  | flushLog
  | flushDeferred
  /-- Sets an interrupt that runs an operation just before a port access to
      come. -/
  | arm (countdown : Nat) (op : Op σ)
  /-- Somebody outside looks at the machine or changes it. -/
  | outside (act : σ → Result × σ)

/-- A message, written piece by piece. -/
inductive Message (σ : Type)
  | done
  | text (text : String) (rest : Message σ)
  /-- What an operation returns, written out, then the rest. It is done when its
      piece is due. -/
  | code (op : Op σ) (render : Result → String) (rest : Message σ)

end

end Kernel

end KernelConsole
