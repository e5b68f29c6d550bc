import KernelConsole.Kernel.EntryPoints

/-!
# Programs of Kernel Operations

What each operation does. Those that are calls are the kernel's entry points; the
others are single requests.

## Main definitions

* `Kernel.Op.program`: What an operation does.
-/

namespace KernelConsole

namespace Kernel

variable {σ : Type}

/-- Runs a program several times and collects its values. -/
def collect {α : Type} (p : KernelIo σ α) : Nat → KernelIo σ (List α)
  | 0 => pure []
  | n + 1 => do
      let a ← p
      let rest ← collect p n
      pure (a :: rest)

/-- What an operation does. -/
def Op.program : Op σ → KernelIo σ Result
  | .init settings => .settled <$> Kernel.init settings
  | .output bytes => do
      bytes.forM Kernel.output
      pure .nothing
  | .input count => .bytes <$> collect Kernel.input count
  | .getByte => .byte <$> Kernel.getByte
  | .readLine prompt buffer => .line <$> Kernel.readLine prompt buffer
  | .serialInterrupt => do
      Kernel.serialInterrupt
      pure .nothing
  | .keyboardInterrupt => do
      Kernel.keyboardInterrupt
      pure .nothing
  | .setColor foreground background => do
      Kernel.setColor foreground background
      pure .nothing
  | .clearScreen => do
      Kernel.clearScreen
      pure .nothing
  | .print text => do
      Kernel.print text
      pure .nothing
  | .installLogger filter => .flag <$> Kernel.installLogger filter
  | .setFilter filter => do
      service (.setFilter filter)
      pure .nothing
  | .log level target message => do
      Kernel.log level target message.pieces
      pure .nothing
  | .logEnabled level => .flag <$> Kernel.logEnabled level
  | .flushLog => do
      Kernel.flushLog
      pure .nothing
  | .flushDeferred => do
      Kernel.flushDeferred
      pure .nothing
  | .arm countdown op => do
      Kernel.arm countdown op
      pure .nothing
  | .outside act => Kernel.outside act

end Kernel

end KernelConsole
