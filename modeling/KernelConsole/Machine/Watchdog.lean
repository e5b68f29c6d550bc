import KernelConsole.Machine.ScriptedPc

/-!
# Watchdog

A program that waits for input that never comes runs for ever. The watchdog ends
such a run: it gives up after a fixed number of port reads, and, where the
program is one that waits for input, after a fixed number of polls in a row for
which no key waits and none will come.

## Main definitions

* `Watched`: A PC with the reads and idle polls so far.
* `Watched.begin`: A fresh watch.
* `Watched.respond`: Answering from the PC, or giving up.
-/

namespace KernelConsole

/-- A PC under a watchdog. -/
structure Watched where
  /-- The PC. -/
  pc : ScriptedPc
  /-- Port reads so far. -/
  reads : Nat := 0
  /-- Idle polls in a row so far, if the program waits for input. -/
  idle : Option Nat := none

namespace Watched

/-- How many port reads a run may make. -/
def maxReads : Nat := 1000000

/-- How many idle polls in a row a run may make. -/
def maxIdle : Nat := 600

/-- Starts a watch, over a program that may wait for input or one that may
    not. -/
def begin (pc : ScriptedPc) (waits : Bool) : Watched where
  pc
  idle := if waits then some 0 else none

/-- The idle polls in a row after a port is read. -/
def idleAfter (w : Watched) (port : UInt16) : Option Nat :=
  w.idle.map fun n =>
    if w.pc.isIdlePoll port then n + 1
    else if w.pc.isKeyboardPoll port then 0
    else n

/-- The run has gone on for too long. -/
def expired (w : Watched) : Bool :=
  maxReads < w.reads || w.idle.any fun n => maxIdle < n

/-- The watch after an access is asked for. -/
def note (w : Watched) : Access → Watched
  | .readReg r => { w with reads := w.reads + 1, idle := w.idleAfter r.port }
  | _ => w

/-- Answers from the PC, or gives up. -/
def respond : Handler Hardware Watched := fun a w =>
  let w := w.note a
  if w.expired then
    .error .stalled
  else
    let (reply, pc) := ScriptedPc.respond a w.pc
    .ok (reply, { w with pc })

end Watched

end KernelConsole
