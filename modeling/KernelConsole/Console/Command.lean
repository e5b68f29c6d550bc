import KernelConsole.Console.LineEditor
import KernelConsole.Log.Backlog

/-!
# Console Commands

What a console can be asked to do, as data, so that a sequence of uses is a list.

A command is on the input side if it only looks at the input devices and takes
bytes from the queue, and on the output side if it only writes. Bringing up the
console and reading a line with echo are on neither.

## Main definitions

* `Console.Command`: One use of a console.
* `Console.Answer`: What it returns.
* `Console.perform`: Doing it.
* `Console.performAll`: Doing one after the other.
-/

namespace KernelConsole

namespace Console

/-- One use of a console. -/
inductive Command
  /-- Brings up the devices. -/
  | init
  | output (byte : UInt8)
  | write (text : String)
  | record (r : Record)
  | flush (b : Backlog)
  | setColor (foreground background : Color)
  | clearScreen
  | input
  | blockingRead
  /-- Looks at the serial port. -/
  | serialInterrupt
  /-- Looks at the keyboard. -/
  | keyboardInterrupt
  | readLine (prompt : Option String) (buffer : Array UInt8)

/-- The command only looks at the input devices and takes from the queue. -/
def Command.isInput : Command → Bool
  | input | serialInterrupt | keyboardInterrupt => true
  | _ => false

/-- The command only writes. -/
def Command.isOutput : Command → Bool
  | output _ | write _ | record _ | flush _ | setColor _ _ | clearScreen => true
  | _ => false

/-- What a use of a console returns. -/
inductive Answer
  | nothing
  | byte (b : Option UInt8)
  | line (l : LineBuffer)
  | backlog (b : Backlog)
deriving DecidableEq

/-- A use that returns nothing. -/
def silently (p : LoggedIo Console) : LoggedIo (Answer × Console) := do
  let c ← p
  pure (.nothing, c)

/-- Does what a command says. -/
def perform (c : Console) : Command → LoggedIo (Answer × Console)
  | .init => silently c.init
  | .output byte => silently (c.output byte)
  | .write text => silently (c.writeText text)
  | .record r => silently (c.writeRecord r)
  | .flush b => do
      let (b, c) ← b.flushInto c
      pure (.backlog b, c)
  | .setColor foreground background => silently (pure (c.setColor foreground background))
  | .clearScreen => silently c.clearScreen
  | .input => do
      let (byte?, c) ← c.input
      pure (.byte byte?, c)
  | .blockingRead => do
      let (byte, c) ← c.blockingRead
      pure (.byte (some byte), c)
  | .serialInterrupt => silently c.serialInterrupt
  | .keyboardInterrupt => silently c.keyboardInterrupt
  | .readLine prompt buffer => do
      let (line, c) ← c.readLine prompt buffer
      pure (.line line, c)

/-- Does what commands say, one after the other, and collects what they return. -/
def performAll (c : Console) : List Command → LoggedIo (List Answer × Console)
  | [] => pure ([], c)
  | command :: rest => do
      let (answer, c) ← c.perform command
      let (answers, c) ← c.performAll rest
      pure (answer :: answers, c)

end Console

end KernelConsole
