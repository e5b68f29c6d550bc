import KernelConsole.Hardware.Bus
import KernelConsole.Kernel.Op.Program

/-!
# Running the Kernel

Kernel code runs on hardware that may interrupt it. An interrupt is an operation
that is armed with a count of port accesses, and it runs just before the access
that brings its count to zero is made. It runs inside whatever the interrupted
code is doing, with the locks as that code left them, and the accesses it makes
are accesses like any others: they count down the interrupts that are still
armed. Accesses to memory are not counted. An operation that kernel code calls
runs the same way, inside the code that calls it.

Interrupts can be armed at any time, also by kernel code that is running. An
interrupt that is armed while others are due counts from the next access on.
What somebody outside does to the machine is no access and is not counted either.

The world is all there is while the kernel runs: the machine, the shared state
and the armed interrupts.

## Main definitions

* `Kernel.World`: The machine, the shared state and the armed interrupts.
* `Kernel.World.tick`: Counting a port access.
* `Kernel.exec`: Running kernel code in a world.
* `Kernel.World.perform`, `Kernel.World.performAll`: Performing an operation, and
  several.
-/

namespace KernelConsole

namespace Kernel

/-- An operation that waits for its interrupt. -/
structure Armed (σ : Type) where
  /-- It runs before the port access that brings this to zero. -/
  countdown : Nat
  /-- What it does. -/
  op : Op σ

/-- The machine, what the kernel shares, and the interrupts to come. -/
structure World (σ : Type) where
  /-- The machine. -/
  machine : σ
  /-- What every part of the kernel shares. -/
  shared : Shared := {}
  /-- The interrupts to come, in the order they were armed. -/
  armed : List (Armed σ) := []
  /-- How many interrupts have run. -/
  fired : Nat := 0

namespace World

variable {σ : Type}

/-- Arms an interrupt behind those that are armed already. -/
def arm (w : World σ) (countdown : Nat) (op : Op σ) : World σ :=
  { w with armed := w.armed ++ [⟨countdown, op⟩] }

/-- Counts a port access. Gives the operations that are due, in the order they
    were armed, and the world without them. -/
def tick (w : World σ) : List (Op σ) × World σ :=
  let due := w.armed.filter fun i => i.countdown ≤ 1
  let later := w.armed.filter fun i => 1 < i.countdown
  (due.map Armed.op,
   { w with
     armed := later.map fun i => { i with countdown := i.countdown - 1 }
     fired := w.fired + due.length })

end World

/-- Runs operations one after the other and forgets what they return. -/
def runAll {σ : Type} (perform : Op σ → World σ → Except Halt (Result × World σ)) :
    List (Op σ) → World σ → Except Halt (World σ)
  | [], w => .ok w
  | op :: rest, w => (perform op w).bind fun v => runAll perform rest v.2

/-- Counts an access if it goes to a port, and runs the interrupts that are due. -/
def interrupts {σ : Type} (perform : Op σ → World σ → Except Halt (Result × World σ))
    (a : Access) (w : World σ) : Except Halt (World σ) :=
  if a.isPort then
    let (due, w) := w.tick
    runAll perform due w
  else
    .ok w

/-- Answers kernel code. An access first lets the interrupts run that are due. They
    and the operations that are called run as `perform` says. -/
def respond {σ : Type} (hw : Handler Hardware σ)
    (perform : Op σ → World σ → Except Halt (Result × World σ)) : Handler (Calls σ) (World σ)
  | .access a, w => (interrupts perform a w).bind fun w =>
      (hw a w.machine).bind fun v => .ok (v.1, { w with machine := v.2 })
  | .service s, w => (w.shared.respond s).bind fun v => .ok (v.1, { w with shared := v.2 })
  | .call op, w => perform op w
  | .arm countdown op, w => .ok ((), w.arm countdown op)
  | .outside act, w =>
      let (result, machine) := act w.machine
      .ok (result, { w with machine })

/-- Runs kernel code in a world. The fuel bounds how often a loop may go round and
    how deep interrupts and calls may nest. -/
def exec {σ : Type} (hw : Handler Hardware σ) {α : Type} :
    Nat → KernelIo σ α → World σ → Except Halt (α × World σ)
  | 0, _, _ => .error .outOfFuel
  | fuel + 1, p, w => p.run (respond hw fun op w => exec hw fuel op.program w) (fuel + 1) w

/-- Performs an operation. -/
def World.perform {σ : Type} (hw : Handler Hardware σ) (fuel : Nat) (op : Op σ) (w : World σ) :
    Except Halt (Result × World σ) :=
  exec hw fuel op.program w

/-- Performs operations one after the other and collects what they return. -/
def World.performAll {σ : Type} (hw : Handler Hardware σ) (fuel : Nat) :
    List (Op σ) → World σ → Except Halt (List Result × World σ)
  | [], w => .ok ([], w)
  | op :: rest, w => (w.perform hw fuel op).bind fun v =>
      (performAll hw fuel rest v.2).bind fun vs => .ok (v.1 :: vs.1, vs.2)

end Kernel

end KernelConsole
