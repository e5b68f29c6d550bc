import KernelConsole.Console.Basic

/-!
# Backlog

Log text that waits until the console is free. It is kept in a ring, so when more
text comes than the ring holds, the newest stays.

## Main definitions

* `Backlog`: Text that waits.
* `Backlog.write`: Adding text.
* `Backlog.flushInto`: Writing it out.

## Theorems

* `Backlog.flushInto_eq`: What is written out, and what is left.
-/

namespace KernelConsole

/-- Text that waits for the console. -/
structure Backlog where
  /-- The bytes of the text. -/
  pending : ByteQueue
deriving DecidableEq

namespace Backlog

/-- A backlog with nothing in it. -/
def empty : Backlog := ⟨Ring.empty⟩

/-- Nothing waits. -/
def isEmpty (b : Backlog) : Bool := b.pending.isEmpty

/-- Adds a text. -/
def write (b : Backlog) (text : String) : Backlog :=
  ⟨b.pending.pushAll (utf8 text)⟩

/-- Adds the line of a record. -/
def writeRecord (b : Backlog) (r : Record) : Backlog :=
  b.write r.line

/-- Writes everything that waits to the console. -/
def flushInto (b : Backlog) (c : Console) : Io (Backlog × Console) := do
  let (bytes, pending) := b.pending.drain
  let c ← c.writeBytes bytes
  pure (⟨pending⟩, c)

/-- What waits is written as it stands in the ring, and the ring is empty afterwards. -/
theorem flushInto_eq (b : Backlog) (c : Console) :
    b.flushInto c = c.writeBytes b.pending.contents >>= fun c =>
      pure (⟨b.pending.drain.2⟩, c) := rfl

end Backlog

end KernelConsole
