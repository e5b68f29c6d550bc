import KernelConsole.Kernel.Calls

/-!
# Kernel Logger

The logger writes records to the console if it can take it, after whatever waits
in the backlog, and to the backlog if it cannot. It never waits for a lock, so it
may be called from anywhere: from an interrupt, from the console's own drivers,
or from code that runs while another record is written.

A message is written piece by piece. A piece is a program that gives a text, so
it may do anything kernel code may do, while the record is half written. What a
driver reports is a call of the logger like any other.

## Main definitions

* `Kernel.Pieces`: The pieces of a message.
* `Kernel.Message.pieces`: What a message writes.
* `Kernel.writePieces`: Writing them in order.
* `Kernel.flushDeferred`: Writing out the backlog.
* `Kernel.log`: Logging a record.
* `Kernel.installLogger`, `Kernel.logEnabled`, `Kernel.flushLog`: The rest of the
  logger.
* `Prog.withLogger`: A driver whose reports go to the logger.
-/

namespace KernelConsole

namespace Kernel

/-- The pieces of a message: programs that give its texts. -/
abbrev Pieces (σ : Type) : Type 1 := List (KernelIo σ String)

variable {σ : Type}

/-- What a message writes. The text of an operation is there when it returns. -/
def Message.pieces : Message σ → Pieces σ
  | .done => []
  | .text piece rest => pure piece :: rest.pieces
  | .code op render rest => (render <$> call op) :: rest.pieces

/-- Writes pieces in order, each as soon as it has given its text. -/
def writePieces {τ : Type} (put : τ → String → KernelIo σ τ) :
    Pieces σ → τ → KernelIo σ τ
  | [], t => pure t
  | piece :: rest, t => do
      let text ← piece
      let t ← put t text
      writePieces put rest t

/-- The pieces of the line of a record whose message is given in pieces. -/
def linePieces (level : Level) (target : String) (message : Pieces σ) : Pieces σ :=
  pure (Record.heading level target) :: message ++ [pure "\n"]

/-- Writes a text to the console. -/
def putConsole (c : Console) (text : String) : KernelIo σ Console :=
  c.writeText text

/-- Adds a text to the backlog. -/
def putBacklog (b : Backlog) (text : String) : KernelIo σ Backlog :=
  pure (b.write text)

/-- Writes out the backlog to a console that is held, if the backlog is free. -/
def flushOnto (c : Console) : KernelIo σ Console := do
  match ← service .tryLockBacklog with
  | none => pure c
  | some b => do
      let (b, c) ← b.flushInto c
      service (.unlockBacklog b)
      pure c

/-- Writes out the backlog, unless the console is not installed or held. -/
def flushDeferred : KernelIo σ Unit := do
  match ← service .tryLockConsole with
  | none => pure ()
  | some c => do
      let c ← flushOnto c
      service (.unlockConsole c)

/-- A logger is installed and lets a level pass. -/
def logEnabled (level : Level) : KernelIo σ Bool := do
  let hasLogger ← service .hasLogger
  let filter ← service .filter
  pure (hasLogger && filter.admits level)

/-- Logs a record that the filter has let pass. -/
def logPassed (level : Level) (target : String) (message : Pieces σ) : KernelIo σ Unit := do
  let pieces := linePieces level target message
  match ← service .tryLockConsole with
  | some c => do
      let c ← flushOnto c
      let c ← writePieces putConsole pieces c
      service (.unlockConsole c)
  | none => do
      match ← service .tryLockBacklog with
      | some b => do
          let b ← writePieces putBacklog pieces b
          service (.unlockBacklog b)
      | none => pure ()

/-- Logs a record, if a logger is installed and lets it pass. -/
def log (level : Level) (target : String) (message : Pieces σ) : KernelIo σ Unit := do
  let enabled ← logEnabled level
  if enabled then logPassed level target message else pure ()

/-- Writes out what the logger has kept back. -/
def flushLog : KernelIo σ Unit := do
  let hasLogger ← service .hasLogger
  if hasLogger then flushDeferred else pure ()

/-- Installs the logger with a filter. A second logger is refused, and its filter
    with it. -/
def installLogger (filter : Filter) : KernelIo σ Bool := do
  let first ← service .installLogger
  if first then service (.setFilter filter)
  pure first

/-- Makes the accesses of a driver and logs its reports. -/
def serve : (r : Reporting.Request) → KernelIo σ (Reporting.Reply r)
  | .access a => access a
  | .report r => do
      let _ ← call (.log r.level r.target (.text r.message .done))
      pure ()

end Kernel

/-- A driver whose reports go to the logger. -/
def Prog.withLogger {σ α : Type} (p : LoggedIo α) : KernelIo σ α :=
  p.interpret Kernel.serve

instance {σ : Type} : MonadLift LoggedIo (KernelIo σ) where
  monadLift := Prog.withLogger

end KernelConsole
