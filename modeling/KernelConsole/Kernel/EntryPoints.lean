import KernelConsole.Kernel.Logger

/-!
# Kernel Entry Points

What the rest of the kernel calls. Most entry points wait for the console, use
it, put it back, and then write out the records that came meanwhile. An interrupt
must not wait, so it does nothing for a console that is held: its holder looks at
the input devices itself before it reads.

Before the console is installed there is nothing to use, and an entry point does
nothing.

## Main definitions

* `Kernel.init`: Bringing up the console, the first time it is called.
* `Kernel.holding`, `Kernel.withConsole`: Using the console.
* `Kernel.output`, `input`, `getByte`, `readLine`, `print`: Writing and reading.
* `Kernel.lookIfFree`, `Kernel.interrupt`: Looking at a device in an interrupt.
* `Kernel.serialInterrupt`, `keyboardInterrupt`: The interrupts.
* `Kernel.setColor`, `clearScreen`: The screen.
-/

namespace KernelConsole

namespace Kernel

variable {σ : Type}

/-- Brings up the console for given settings and installs it. Nothing is done if
    it is installed already, and nothing is touched if the settings are refused.
    If another call installs a console meanwhile, that one stays. -/
def init (settings : Settings) : KernelIo σ (Except Settings.Fault Unit) := do
  let installed ← service .isInstalled
  if installed then
    pure (.ok ())
  else match Console.ofSettings settings with
    | .error fault => pure (.error fault)
    | .ok c => do
        let c ← c.init
        service (.install c)
        flushDeferred
        pure (.ok ())

/-- Waits for the console, uses it and puts it back. Gives `none` if the console is
    not installed. -/
def holding {α : Type} (use : Console → KernelIo σ (α × Console)) : KernelIo σ (Option α) := do
  match ← service .lockConsole with
  | none => pure none
  | some c => do
      let (a, c) ← use c
      service (.unlockConsole c)
      pure (some a)

/-- Waits for the console, uses it, and writes out the records that came
    meanwhile. -/
def withConsole {α : Type} (use : Console → KernelIo σ (α × Console)) : KernelIo σ (Option α) := do
  let result ← holding use
  flushDeferred
  pure result

/-- Writes a byte to every console device. -/
def output (byte : UInt8) : KernelIo σ Unit := do
  let _ ← withConsole fun c => do
    let c ← c.output byte
    pure ((), c)
  pure ()

/-- Takes the oldest byte that waits, after looking at the input devices. -/
def input : KernelIo σ (Option UInt8) := do
  let byte? ← withConsole fun c => c.input
  pure byte?.join

/-- Waits for a byte. -/
def getByte : KernelIo σ (Option UInt8) :=
  withConsole fun c => c.blockingRead

/-- Reads an edited line into a buffer. -/
def readLine (prompt : Option String) (buffer : Array UInt8) : KernelIo σ (Option LineBuffer) :=
  withConsole fun c => c.readLine prompt buffer

/-- Lets the console look at an input device if nobody holds it. -/
def lookIfFree (look : Console → KernelIo σ Console) : KernelIo σ Unit := do
  match ← service .tryLockConsole with
  | none => pure ()
  | some c => do
      let c ← look c
      service (.unlockConsole c)

/-- Lets the console look at an input device if nobody holds it, then writes out
    the backlog. -/
def interrupt (look : Console → KernelIo σ Console) : KernelIo σ Unit := do
  lookIfFree look
  flushDeferred

/-- The serial port has a byte. -/
def serialInterrupt : KernelIo σ Unit :=
  interrupt fun c => c.serialInterrupt

/-- The keyboard has a byte. -/
def keyboardInterrupt : KernelIo σ Unit :=
  interrupt fun c => c.keyboardInterrupt

/-- Chooses how the next characters are drawn. -/
def setColor (foreground background : Color) : KernelIo σ Unit := do
  let _ ← withConsole fun c => pure ((), c.setColor foreground background)
  pure ()

/-- Blanks the screen. -/
def clearScreen : KernelIo σ Unit := do
  let _ ← withConsole fun c => do
    let c ← c.clearScreen
    pure ((), c)
  pure ()

/-- Writes a text to every console device. -/
def print (text : String) : KernelIo σ Unit := do
  let _ ← withConsole fun c => do
    let c ← c.writeText text
    pure ((), c)
  pure ()

end Kernel

end KernelConsole
