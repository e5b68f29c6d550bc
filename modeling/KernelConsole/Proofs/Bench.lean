import Mathlib.Tactic.SplitIfs
import KernelConsole.Machine.Bench
import KernelConsole.Proofs.Screen.Safety

/-!
# What a Bench Keeps of a Run

A bench after a run, worked out from the events of the run. It has written down every port
that was read and every byte that was written, its display controllers were told what was
written to them, and a cell that no event has the address of holds what it held. Whether
there is a serial port, or memory for the colour adapter, nothing changes.

So what is proved of the events of a program on any hardware says what the program leaves
behind on a bench.

## Main definitions

* `Bench.Saw`: A bench after some events.

## Theorems

* `Bench.Saw.access`: One access.
* `Prog.Observes.bench`: A run.
-/

namespace KernelConsole

open Prog

namespace Bench

/-- The bench `b` has become `b'` through these events. -/
structure Saw (b : Bench) (events : List Event) (b' : Bench) : Prop where
  /-- Every byte that was written to a port, in order. -/
  writes : b'.writes.toList = b.writes.toList ++ events.filterMap Event.portWrite?
  /-- Every port that was read, in order. -/
  reads : b'.reads.toList = b.reads.toList ++ events.filterMap Event.portRead?
  /-- What the display controllers were told. -/
  crtcs : b'.crtcs = b.crtcs.after events
  /-- No other cell has changed. -/
  memory : ∀ address, (∀ e ∈ events, e.address? ≠ some address) →
    b'.memory.read address = b.memory.read address
  colorPresent : b'.colorPresent = b.colorPresent
  uartPresent : b'.uartPresent = b.uartPresent

theorem Saw.refl (b : Bench) : b.Saw [] b where
  writes := (List.append_nil _).symm
  reads := (List.append_nil _).symm
  crtcs := rfl
  memory _ _ := rfl
  colorPresent := rfl
  uartPresent := rfl

theorem Saw.trans {b b₁ b₂ : Bench} {events later : List Event} (h : b.Saw events b₁)
    (h' : b₁.Saw later b₂) : b.Saw (events ++ later) b₂ where
  writes := by rw [h'.writes, h.writes, List.filterMap_append, List.append_assoc]
  reads := by rw [h'.reads, h.reads, List.filterMap_append, List.append_assoc]
  crtcs := by rw [h'.crtcs, h.crtcs, CrtcBank.after_append]
  memory address hnone := by
    rw [h'.memory address fun e he => hnone e (List.mem_append_right _ he),
      h.memory address fun e he => hnone e (List.mem_append_left _ he)]
  colorPresent := h'.colorPresent.trans h.colorPresent
  uartPresent := h'.uartPresent.trans h.uartPresent

theorem saw_readPort (b : Bench) (r : Register) :
    b.Saw [.regRead r (b.readPort r.port).1] (b.readPort r.port).2 := by
  -- A value may be taken off a device, but that is nothing the events tell of.
  rcases b.readPort_state r.port with ⟨_, _, _, hstate, _⟩
  rw [hstate]
  exact ⟨(List.append_nil _).symm, Array.toList_push, rfl, fun _ _ => rfl, rfl, rfl⟩

/-- A write to a register is seen, and its controller is told. -/
theorem saw_writePort (b : Bench) (r : Register) (value : UInt8) :
    b.Saw [.regWrite r value] (b.writePort r.port value) := by
  -- A controller has two ports, and nothing else is told what is written to them.
  have hcrtcs : (b.writePort r.port value).crtcs = b.crtcs.writePort r.port value := by
    unfold writePort CrtcBank.writePort
    change (if r.port = colorCrtcPort ∨ r.port = monoCrtcPort then _ else _ : Bench).crtcs =
      if r.port = colorCrtcPort ∨ r.port = monoCrtcPort then _ else
        if r.port = colorCrtcPort + 1 ∨ r.port = monoCrtcPort + 1 then _ else _
    split_ifs <;> rfl
  rcases b.writePort_state r.port value with ⟨_, hstate⟩
  rw [hstate] at hcrtcs ⊢
  exact ⟨Array.toList_push, (List.append_nil _).symm, hcrtcs, fun _ _ => rfl, rfl, rfl⟩

/-- A write to memory is no port traffic, and changes that cell only. -/
theorem saw_writeCell (b : Bench) (address : Nat) (cell : UInt16) :
    b.Saw [.cellWrite address cell] (b.writeCell address cell) := by
  unfold writeCell
  by_cases hnone : (inColorBuffer address && !b.colorPresent) = true
  · -- the write goes nowhere
    rw [if_pos hnone]
    exact ⟨(List.append_nil _).symm, (List.append_nil _).symm, rfl, fun _ _ => rfl, rfl, rfl⟩
  · rw [if_neg hnone]
    refine ⟨(List.append_nil _).symm, (List.append_nil _).symm, rfl, fun other hother => ?_, rfl,
      rfl⟩
    have hne : address ≠ other := fun h => hother _ List.mem_cons_self (congrArg some h)
    exact (b.memory.read_write address other cell).trans (if_neg hne)

/-- An access leaves behind what its event says. -/
theorem Saw.access (a : Access) (b : Bench) :
    b.Saw [Event.of a (respond a b).1] (respond a b).2 := by
  cases a with
  | readReg r => exact b.saw_readPort r
  | writeReg r value => exact b.saw_writePort r value
  | readCell address =>
      exact ⟨(List.append_nil _).symm, (List.append_nil _).symm, rfl, fun _ _ => rfl, rfl, rfl⟩
  | writeCell address cell => exact b.saw_writeCell address cell

/-- With an analyser on the bench, every access adds its event to those it has seen. -/
theorem Saw.recording {b : Bench} (a : Access) {s : Bench × List Event}
    (h : b.Saw s.2.reverse s.1) :
    b.Saw (respond.recording a s).2.2.reverse (respond.recording a s).2.1 := by
  have hone := h.trans (Saw.access a s.1)
  change b.Saw (Event.of a (respond a s.1).1 :: s.2).reverse (respond a s.1).2
  rw [List.reverse_cons]
  exact hone

end Bench

namespace Prog

variable {α : Type} {fuel : Nat} {b : Bench} {Q : α → List Event → Bench → Prop}

/-- A run that is watched on a bench leaves behind what was seen. -/
theorem Observes.bench {p : LoggedIo α} (hp : p.Observes Bench.respond fuel b Q)
    (records : List Record) :
    p.Returns Bench.respond.handler.keepingRecords fuel (b, records) fun a s' =>
      ∃ events, Q a events s'.1 ∧ b.Saw events s'.1 := by
  rcases hp [] records with ⟨a, ⟨⟨b', recorded⟩, records'⟩, hrun, events, hrecorded, hQ⟩
  have hevents : recorded.reverse = events := by
    rw [show recorded = events.reverse ++ [] from hrecorded, List.append_nil, List.reverse_reverse]
  have hsaw : b.Saw recorded.reverse b' := by
    -- Every access keeps this, so the whole run does.
    refine Only.ensures (K := fun s : (Bench × List Event) × List Record =>
      b.Saw s.1.2.reverse s.1.1) (s := ((b, []), records)) ?_ (only_true p) (.refl b) a _ hrun
    rintro (access | record) - s hs v s' hreply
    · cases hreply
      exact hs.recording access
    · cases hreply
      exact hs
  -- Without the analyser the run is the same.
  have hplain := run_watched Bench.respond.handler fuel p ((b, []), records)
  rw [Bus.recorded_handler] at hplain
  rw [hrun] at hplain
  rw [hevents] at hsaw
  exact ⟨a, (b', records'), hplain.symm, events, hQ, hsaw⟩

end Prog

end KernelConsole
