import KernelConsole.Kernel.Op
import KernelConsole.Kernel.Shared

/-!
# Kernel Code

Kernel code accesses the hardware, uses the shared state and calls operations,
and all three are requests. Two more stand for what only happens around the
kernel's own code: that an interrupt is set, and that somebody outside touches
the machine.

## Main definitions

* `Kernel.Calls`: The requests of kernel code.
* `KernelIo`: A program of them.
* `Kernel.access`, `Kernel.service`, `Kernel.call`, `Kernel.arm`,
  `Kernel.outside`: The programs of one request.
-/

namespace KernelConsole

namespace Kernel

/-- What kernel code may ask for. -/
inductive Request (σ : Type)
  /-- Access the hardware. -/
  | access (a : Access)
  /-- Use the shared state. -/
  | service (s : Service)
  /-- Call an operation. -/
  | call (op : Op σ)
  /-- Set an interrupt. -/
  | arm (countdown : Nat) (op : Op σ)
  /-- Let somebody outside touch the machine. -/
  | outside (act : σ → Result × σ)

/-- The reply of whoever is asked. -/
@[reducible] def Reply {σ : Type} : Request σ → Type
  | .access a => a.Reply
  | .service s => s.Reply
  | .call _ => Result
  | .arm _ _ => Unit
  | .outside _ => Result

/-- The interface of kernel code. -/
@[reducible] def Calls (σ : Type) : Interface where
  Request := Request σ
  Reply := Reply

end Kernel

/-- Kernel code that runs on a machine with states `σ`. -/
abbrev KernelIo (σ : Type) : Type → Type 1 := Prog (Kernel.Calls σ)

namespace Kernel

variable {σ : Type}

/-- Makes one access. -/
def access (a : Access) : KernelIo σ a.Reply :=
  .call (.access a) .done

/-- Makes one request on the shared state. -/
def service (s : Service) : KernelIo σ s.Reply :=
  .call (.service s) .done

/-- Calls an operation. -/
def call (op : Op σ) : KernelIo σ Result :=
  .call (.call op) .done

/-- Sets an interrupt. -/
def arm (countdown : Nat) (op : Op σ) : KernelIo σ Unit :=
  .call (.arm countdown op) .done

/-- Lets somebody outside touch the machine. -/
def outside (act : σ → Result × σ) : KernelIo σ Result :=
  .call (.outside act) .done

end Kernel

instance {σ : Type} : MonadLift Io (KernelIo σ) where
  monadLift p := p.interpret Kernel.access

end KernelConsole
