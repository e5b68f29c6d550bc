import KernelConsole.Console.LineEditor
import KernelConsole.Log.Backlog

/-!
# Shared State of the Kernel

There is one console, one backlog and one log filter, and every part of the
kernel reaches them through the requests listed here. The console and the backlog
stand behind a lock each. Taking a lock takes the value out of it, so whoever
does not hold the lock has nothing to look at.

Both locks can be asked for without waiting. The console's can also be waited
for. Since nothing else runs while a program waits, waiting for a lock that is
held never ends; it halts as a deadlock.

The order of the locks is the console's before the backlog's.

## Main definitions

* `Lock`: A value that may be taken out.
* `Shared`: The console, the backlog and the log filter.
* `Service`: The requests on them.
* `Shared.respond`: The answers.

## Theorems

* `Shared.respond_lockConsole`, `respond_tryLockConsole`, `respond_tryLockBacklog`:
  Who asks for a lock gets it exactly if nobody holds it.
-/

namespace KernelConsole

/-- A value behind a lock. -/
inductive Lock (α : Type)
  /-- Nobody holds the lock. -/
  | free (value : α)
  /-- Somebody holds the lock, and the value with it. -/
  | held

/-- Nobody holds the lock. -/
def Lock.isFree {α : Type} : Lock α → Bool
  | free _ => true
  | held => false

/-- What every part of the kernel shares. -/
structure Shared where
  /-- The console, once it is installed. -/
  console : Option (Lock Console) := none
  /-- The log text that waits for the console. -/
  backlog : Lock Backlog := .free .empty
  /-- A logger has been installed. -/
  hasLogger : Bool := false
  /-- The levels that are logged. -/
  filter : Filter := .off

/-- A request on the shared state. -/
inductive Service
  | isInstalled
  /-- Installs a console, unless one is installed already. -/
  | install (c : Console)
  /-- Waits for the console, if one is installed. -/
  | lockConsole
  /-- Takes the console if one is installed and nobody holds it. -/
  | tryLockConsole
  | unlockConsole (c : Console)
  /-- Takes the backlog if nobody holds it. -/
  | tryLockBacklog
  | unlockBacklog (b : Backlog)
  | hasLogger
  /-- Installs the logger and says whether this was the first time. -/
  | installLogger
  | filter
  | setFilter (f : Filter)

/-- What the shared state answers to a request. -/
@[reducible] def Service.Reply : Service → Type
  | isInstalled => Bool
  | install _ => Unit
  | lockConsole => Option Console
  | tryLockConsole => Option Console
  | unlockConsole _ => Unit
  | tryLockBacklog => Option Backlog
  | unlockBacklog _ => Unit
  | hasLogger => Bool
  | installLogger => Bool
  | filter => Filter
  | setFilter _ => Unit

/-- Answers a request on the shared state. -/
def Shared.respond (s : Shared) : (r : Service) → Except Halt (r.Reply × Shared)
  | .isInstalled => .ok (s.console.isSome, s)
  | .install c => .ok ((), match s.console with
    | none => { s with console := some (.free c) }
    | some _ => s)
  | .lockConsole => match s.console with
    | none => .ok (none, s)
    | some (.free c) => .ok (some c, { s with console := some .held })
    | some .held => .error .deadlock
  | .tryLockConsole => match s.console with
    | some (.free c) => .ok (some c, { s with console := some .held })
    | _ => .ok (none, s)
  | .unlockConsole c => .ok ((), { s with console := some (.free c) })
  | .tryLockBacklog => match s.backlog with
    | .free b => .ok (some b, { s with backlog := .held })
    | .held => .ok (none, s)
  | .unlockBacklog b => .ok ((), { s with backlog := .free b })
  | .hasLogger => .ok (s.hasLogger, s)
  | .installLogger => .ok (!s.hasLogger, { s with hasLogger := true })
  | .filter => .ok (s.filter, s)
  | .setFilter f => .ok ((), { s with filter := f })

namespace Shared

/-- Who waits for the console gets it, unless there is none. For a console that is held it
    waits for ever. -/
theorem respond_lockConsole (s : Shared) :
    (s.console = none ∧ s.respond .lockConsole = .ok (none, s)) ∨
      (∃ c, s.console = some (.free c) ∧
        s.respond .lockConsole = .ok (some c, { s with console := some .held })) ∨
      (s.console = some .held ∧ s.respond .lockConsole = .error .deadlock) := by
  rcases s with ⟨_ | (c | _), _, _, _⟩
  · exact .inl ⟨rfl, rfl⟩
  · exact .inr (.inl ⟨c, rfl, rfl⟩)
  · exact .inr (.inr ⟨rfl, rfl⟩)

/-- Who asks for the console gets it if it is free, and else nothing. -/
theorem respond_tryLockConsole (s : Shared) :
    ((∀ c, s.console ≠ some (.free c)) ∧ s.respond .tryLockConsole = .ok (none, s)) ∨
      ∃ c, s.console = some (.free c) ∧
        s.respond .tryLockConsole = .ok (some c, { s with console := some .held }) := by
  rcases s with ⟨_ | (c | _), _, _, _⟩
  · refine .inl ⟨fun c hfree => ?_, rfl⟩
    cases hfree
  · exact .inr ⟨c, rfl, rfl⟩
  · refine .inl ⟨fun c hfree => ?_, rfl⟩
    cases hfree

/-- Who asks for the backlog gets it if nobody holds it, and else nothing. -/
theorem respond_tryLockBacklog (s : Shared) :
    (s.backlog = .held ∧ s.respond .tryLockBacklog = .ok (none, s)) ∨
      ∃ b, s.backlog = .free b ∧
        s.respond .tryLockBacklog = .ok (some b, { s with backlog := .held }) := by
  rcases s with ⟨_, b | _, _, _⟩
  · exact .inr ⟨b, rfl, rfl⟩
  · exact .inl ⟨rfl, rfl⟩

end Shared

end KernelConsole
