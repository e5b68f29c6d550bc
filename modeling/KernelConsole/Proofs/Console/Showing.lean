import KernelConsole.Proofs.Drivers
import KernelConsole.Proofs.Screen.Line
import KernelConsole.Proofs.Screen.Refinement
import KernelConsole.Console.LineEditor

/-!
# A Console Shows What It Writes

What a console writes goes to a tape that its screen shows, if the buffer of its
text adapter is plain memory. The serial port and the printer get every byte
first. They may be stuck, but waiting for them ends, and neither has anything to
do with the buffer.

Reading looks at registers only, so it leaves what the screen shows.

## Theorems

* `waitForBits_returns`, `Uart.transmit_returns`, `Printer.transmit_returns`:
  Devices that may be stuck are given a byte nevertheless.
* `Screen.Shows.access`: An access to anything but the buffer.
* `Console.output_shows`, `Console.writeBytes_shows`, `Console.writePrompt_shows`:
  What is written is on the screen.
* `Console.blockingRead_shows`: Reading leaves the screen.
-/

namespace KernelConsole

open Prog

variable {σ : Type} {bus : Bus σ} {fuel : Nat}

section Registers

variable {K : σ → Prop}

/-- A delay ends, and keeps whatever a read of a register keeps. -/
theorem ioDelay_returns (hread : ∀ r m, K m → K (bus (.readReg r) m).2) {m : σ} (hm : K m) :
    ioDelay.Returns bus.handler fuel m fun _ m' => K m' := by
  have hone : ∀ m, K m → (readReg .diagnostic).Returns bus.handler fuel m fun _ m' => K m' :=
    fun m hm => returns_access _ (hread _ _ hm)
  refine returns_bind (returns_mono (hone m hm) fun _ m₁ hm₁ => ?_)
  refine returns_bind (returns_mono (hone m₁ hm₁) fun _ m₂ hm₂ => ?_)
  refine returns_bind (returns_mono (hone m₂ hm₂) fun _ m₃ hm₃ => ?_)
  exact returns_bind (returns_mono (hone m₃ hm₃) fun _ m₄ hm₄ => returns_pure hm₄)

/-- Waiting ends, whether or not the device is ever ready. -/
theorem waitForBits_returns (hread : ∀ r m, K m → K (bus (.readReg r) m).2) (limit : UInt32)
    (r : Register) (mask : UInt8) {m : σ} (hm : K m) :
    (waitForBits limit r mask).Returns bus.handler fuel m fun _ m' => K m' := by
  refine returns_bind (returns_mono (Q := fun _ m' => K m') ?_ fun _ m₁ hm₁ => returns_pure hm₁)
  -- By induction on how often the device may still be asked.
  generalize limit.toNat = n
  induction n generalizing m with
  | zero => exact returns_pure hm
  | succ n ih =>
      rw [spinUntil]
      refine returns_bind (returns_bind (returns_access _ (returns_pure ?_)))
      have hm₁ := hread r m hm
      by_cases hready : ((bus (.readReg r) m).1 &&& mask != 0) = true
      · simp only [if_pos hready]
        exact returns_pure hm₁
      · simp only [if_neg hready]
        exact returns_bind (returns_mono (ioDelay_returns hread hm₁) fun _ m₂ hm₂ => ih hm₂)

theorem Uart.transmit_returns (hread : ∀ r m, K m → K (bus (.readReg r) m).2)
    (hwrite : ∀ r v m, K m → K (bus (.writeReg r v) m).2) (u : Uart) (byte : UInt8) {m : σ}
    (hm : K m) : (u.transmit byte).Returns bus.handler fuel m fun _ m' => K m' := by
  -- The wait is over some time, and then the byte is one write.
  refine returns_bind (returns_mono (waitForBits_returns hread _ _ _ hm) fun _ m₁ hm₁ => ?_)
  exact returns_access _ (hwrite _ _ _ hm₁)

theorem Printer.transmit_returns (hread : ∀ r m, K m → K (bus (.readReg r) m).2)
    (hwrite : ∀ r v m, K m → K (bus (.writeReg r v) m).2) (p : Printer) (byte : UInt8) {m : σ}
    (hm : K m) : (p.transmit byte).Returns bus.handler fuel m fun _ m' => K m' := by
  refine returns_bind (returns_mono (waitForBits_returns hread _ _ _ hm) fun _ m₁ hm₁ => ?_)
  have hm₂ := hwrite (p.reg .data) byte m₁ hm₁
  have hm₃ := hwrite (p.reg .control) Printer.strobe _ hm₂
  refine returns_bind (returns_access _ (returns_bind (returns_access _ ?_)))
  exact returns_access _ (hwrite _ _ _ hm₃)

end Registers

namespace Screen

variable {a : Adapter} {contents : σ → Nat → UInt16}

/-- At the start a screen shows the tape whose window it is. -/
theorem shows_tape (s : Screen) (contents : σ → Nat → UInt16) (m : σ) :
    Shows s.adapter contents (s.tape (contents m)) s m where
  adapter := rfl
  colors := rfl
  pos := (Nat.zero_add _).symm
  window i _ := congrArg (contents m) (Nat.zero_add i).symm

/-- An access that writes to no cell of the buffer leaves what the screen shows. -/
theorem Shows.access (hplain : PlainBuffer bus a contents) {t : Tape} {s : Screen} {m : σ}
    (hs : Shows a contents t s m) {access : Access}
    (hother : ∀ i < cells, ∀ cell, access ≠ .writeCell (a.cellAddress i) cell) :
    Shows a contents t s (bus access m).2 := by
  refine ⟨hs.adapter, hs.colors, hs.pos, fun i hi => ?_⟩
  rw [hplain.other m access hother i hi]
  exact hs.window i hi

end Screen

namespace Console

variable {a : Adapter} {contents : σ → Nat → UInt16}

/-- A byte that is written is on the tape, whatever the serial port and the printer do with it.
    -/
theorem output_shows (hplain : PlainBuffer bus a contents) {t : Tape} {c : Console} {m : σ}
    (hs : Screen.Shows a contents t c.screen m) (ht : t.InWindow) (byte : UInt8) :
    (c.output byte).Returns bus.handler fuel m fun c' m' =>
      Screen.Shows a contents (t.put byte) c'.screen m' := by
  -- The serial port and the printer are reached through registers only.
  have hread : ∀ r m, Screen.Shows a contents t c.screen m →
      Screen.Shows a contents t c.screen (bus (.readReg r) m).2 :=
    fun r m hm => hm.access hplain nofun
  have hwrite : ∀ r v m, Screen.Shows a contents t c.screen m →
      Screen.Shows a contents t c.screen (bus (.writeReg r v) m).2 :=
    fun r v m hm => hm.access hplain nofun
  refine returns_bind (returns_mono (c.uart.transmit_returns hread hwrite byte hs)
    fun _ m₁ hs₁ => ?_)
  refine returns_bind (returns_mono (c.printer.transmit_returns hread hwrite byte hs₁)
    fun _ m₂ hs₂ => ?_)
  refine returns_bind (returns_mono (Screen.putChar_shows hplain hs₂ ht byte)
    fun screen m₃ hs₃ => ?_)
  exact returns_pure hs₃

theorem writeBytes_shows (hplain : PlainBuffer bus a contents) (bytes : List UInt8) {t : Tape}
    {c : Console} {m : σ} (hs : Screen.Shows a contents t c.screen m) (ht : t.InWindow) :
    (c.writeBytes bytes).Returns bus.handler fuel m fun c' m' =>
      Screen.Shows a contents (t.putAll bytes) c'.screen m' := by
  induction bytes generalizing t c m with
  | nil => exact returns_pure hs
  | cons byte rest ih =>
      rw [writeBytes]
      refine returns_bind (returns_mono (output_shows hplain hs ht byte) fun c₁ m₁ hs₁ => ?_)
      exact ih hs₁ (Tape.inWindow_perform ht (.put byte))

theorem writePrompt_shows (hplain : PlainBuffer bus a contents) {t : Tape} {c : Console} {m : σ}
    (hs : Screen.Shows a contents t c.screen m) (ht : t.InWindow) (prompt : Option String) :
    (c.writePrompt prompt).Returns bus.handler fuel m fun c' m' =>
      Screen.Shows a contents (t.putAll (prompt.elim [] utf8)) c'.screen m' := by
  cases prompt with
  | none => exact returns_pure hs
  | some text => exact writeBytes_shows hplain (utf8 text) hs ht

theorem enqueue_screen (c : Console) (byte : UInt8) : (c.enqueue byte).screen = c.screen := by
  unfold enqueue
  split <;> rfl

theorem enqueueEvent_screen (c : Console) (event : KeyEvent) :
    (c.enqueueEvent event).screen = c.screen := by
  unfold enqueueEvent
  cases event.byte? with
  | none => rfl
  | some byte => exact c.enqueue_screen byte

/-- A look at the serial port leaves the screen alone. So do the other ways of reading, which
    are made of it and of a look at the keyboard. -/
theorem serialInterrupt_screen (c : Console) {hw : Handler Hardware σ} {m : σ} :
    c.serialInterrupt.Ensures hw fuel m fun c' _ => c'.screen = c.screen := by
  unfold serialInterrupt
  by_cases hpresent : c.uart.present = true
  · rw [if_pos hpresent]
    refine ensures_iterate (fun d _ => d.screen = c.screen) rfl fun d m₁ hd => ?_
    refine ensures_bind fun byte? m₂ _ => ?_
    cases byte? with
    | none => exact ensures_pure hd
    | some byte => exact ensures_pure ((d.enqueue_screen byte).trans hd)
  · rw [if_neg hpresent]
    exact ensures_pure rfl

theorem keyboardInterrupt_screen (c : Console) {h : Handler Reporting σ} {s : σ} :
    c.keyboardInterrupt.Ensures h fuel s fun c' _ => c'.screen = c.screen := by
  unfold keyboardInterrupt
  refine ensures_iterate (fun d _ => d.screen = c.screen) rfl fun d s₁ hd => ?_
  refine ensures_bind fun ⟨event?, keyboard⟩ s₂ _ => ?_
  cases event? with
  | none => exact ensures_pure hd
  | some event => exact ensures_pure ((enqueueEvent_screen _ event).trans hd)

theorem input_screen (c : Console) {hw : Handler Hardware σ} {s : σ × List Record} :
    c.input.Ensures hw.keepingRecords fuel s fun v _ => v.2.screen = c.screen := by
  unfold input
  refine ensures_bind (ensures_mono (ensures_unreported (p := c.serialInterrupt)
    (Q := fun c' _ => c'.screen = c.screen) c.serialInterrupt_screen) fun c₁ s₁ hc₁ => ?_)
  refine ensures_bind (ensures_mono c₁.keyboardInterrupt_screen fun c₂ s₂ hc₂ => ?_)
  exact ensures_pure (hc₂.trans hc₁)

theorem blockingRead_screen (c : Console) {hw : Handler Hardware σ} {s : σ × List Record} :
    c.blockingRead.Ensures hw.keepingRecords fuel s fun v _ => v.2.screen = c.screen := by
  unfold blockingRead
  refine ensures_iterate (fun d _ => d.screen = c.screen) rfl fun d s₁ hd => ?_
  refine ensures_bind (ensures_mono d.input_screen fun ⟨byte?, d'⟩ s₂ hd' => ?_)
  cases byte? with
  | none => exact ensures_pure (hd'.trans hd)
  | some byte =>
      by_cases hzero : byte = 0
      · simp only [if_pos hzero]
        exact ensures_pure (hd'.trans hd)
      · simp only [if_neg hzero]
        exact ensures_pure (hd'.trans hd)

/-- Waiting for a byte changes nothing on the screen. -/
theorem blockingRead_shows (hplain : PlainBuffer bus a contents) {t : Tape} {c : Console} {m : σ}
    {r : List Record} (hs : Screen.Shows a contents t c.screen m) :
    c.blockingRead.Ensures bus.handler.keepingRecords fuel (m, r) fun v s' =>
      Screen.Shows a contents t v.2.screen s'.1 := by
  -- A console that reads never writes a cell.
  have hlooks : Looks fun access =>
      ∀ i < Screen.cells, ∀ cell, access ≠ .writeCell (a.cellAddress i) cell :=
    ⟨fun _ _ => nofun, fun _ => nofun, fun _ => nofun, fun _ => nofun⟩
  have hkept : c.blockingRead.Ensures bus.handler.keepingRecords fuel (m, r) fun _ s' =>
      Screen.Shows a contents t c.screen s'.1 := by
    refine Only.ensures (K := fun s : σ × List Record => Screen.Shows a contents t c.screen s.1) ?_
      (blockingRead_only (H := fun _ => True) hlooks c) hs
    intro request hallowed s hs v s' hreply
    cases request with
    | access access =>
        cases hreply
        exact hs.access hplain hallowed
    | report record =>
        cases hreply
        exact hs
  -- The screen is the one there was, and so is what it shows.
  intro v s' hrun
  rw [c.blockingRead_screen v s' hrun]
  exact hkept v s' hrun

end Console

end KernelConsole
