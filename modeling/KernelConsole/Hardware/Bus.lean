import KernelConsole.Hardware.Access
import KernelConsole.Program.Run

/-!
# Buses

A `Bus` is hardware that answers every access: a state, and a reply and next
state for each access to it. Nothing ties the replies to the writes, so a
statement about every bus covers hardware that is absent, stuck or wrong, as
well as hardware that works.

`Handler.recorded` puts an analyser on a bus. It leaves the replies alone and
keeps the events, newest first.

## Main definitions

* `Bus`: Hardware that answers every access.
* `Bus.handler`: A bus as a handler that never halts.
* `Handler.recorded`: Keeping the events of a run.
* `Bus.trace`: The events and result of a program run on a bus.
-/

namespace KernelConsole

/-- Hardware with states `σ` that answers every access. -/
abbrev Bus (σ : Type) : Type :=
  (a : Access) → σ → a.Reply × σ

/-- A bus as a handler that never halts. -/
def Bus.handler {σ : Type} (bus : Bus σ) : Handler Hardware σ :=
  fun a s => .ok (bus a s)

/-- The same handler with the events of the run beside its state, newest
    first. -/
def Handler.recorded {σ : Type} (h : Handler Hardware σ) : Handler Hardware (σ × List Event) :=
  fun a s => (h a s.1).bind fun v => .ok (v.1, v.2, Event.of a v.1 :: s.2)

/-- Runs a program on a bus, giving its value, the events in the order they
    happened, and the state the bus is left in. -/
def Bus.trace {σ α : Type} (bus : Bus σ) (fuel : Nat) (p : Io α) (s : σ) :
    Except Halt (α × List Event × σ) :=
  (p.run bus.handler.recorded fuel (s, [])).bind fun v => .ok (v.1, v.2.2.reverse, v.2.1)

end KernelConsole
