import KernelConsole.Hardware.Access
import KernelConsole.Log.Record
import KernelConsole.Program.Run

/-!
# Drivers that Report

Most of a driver only accesses hardware. A few steps of it also report what they
found: which adapter answered, that a UART is missing, that a reset was asked
for. Such a program is a `LoggedIo`, and where its reports go is for whoever runs
it to say.

A program that writes to the console is an `Io` and cannot report, so writing a
report can never cause another.

## Main definitions

* `Reporting`: Accesses, and reports of a record.
* `LoggedIo`: A program of those.
* `report`: The program that reports one record.
* `Handler.keepingRecords`: Collecting the reports of a run.

## Theorems

* `Prog.run_unreported`: A program that never reports adds no report.
-/

namespace KernelConsole

/-- An access to the hardware, or a report. -/
inductive Reporting.Request
  /-- Access the hardware. -/
  | access (a : Access)
  /-- Report a record. -/
  | report (r : Record)

/-- The reply to an access is the hardware's; a report has none. -/
@[reducible] def Reporting.Reply : Reporting.Request → Type
  | .access a => a.Reply
  | .report _ => Unit

/-- The interface of accesses and reports. -/
@[reducible] def Reporting : Interface where
  Request := Reporting.Request
  Reply := Reporting.Reply

/-- A program that accesses hardware and may report what it finds. -/
abbrev LoggedIo : Type → Type 1 := Prog Reporting

/-- Reports a record. -/
def report (level : Level) (target message : String) : LoggedIo Unit :=
  .call (.report ⟨level, target, message⟩) .done

/-- Makes one access. -/
def Reporting.access (a : Access) : LoggedIo a.Reply :=
  .call (.access a) .done

/-- A program that never reports, among those that may. -/
def Prog.unreported {α : Type} (p : Io α) : LoggedIo α :=
  p.interpret Reporting.access

instance : MonadLift Io LoggedIo where
  monadLift := Prog.unreported

/-- Answers accesses as before and collects the reports, newest first. -/
def Handler.keepingRecords {σ : Type} (h : Handler Hardware σ) :
    Handler Reporting (σ × List Record)
  | .access a, s => carry s.2 (h a s.1)
  | .report r, s => .ok ((), s.1, r :: s.2)

/-- A program that never reports leaves the reports so far as they are. -/
theorem Prog.run_unreported {σ α : Type} (h : Handler Hardware σ) (fuel : Nat) (p : Io α)
    (s : σ) (records : List Record) :
    p.unreported.run h.keepingRecords fuel (s, records) = carry records (p.run h fuel s) := by
  rw [← Prog.run_beside]
  refine Prog.run_interpret _ _ _ _ ?_ p _
  intro a state
  simp only [Reporting.access, Prog.run, Handler.keepingRecords, Handler.beside]
  cases h a state.1 with
  | error why => rfl
  | ok v => rfl

end KernelConsole
