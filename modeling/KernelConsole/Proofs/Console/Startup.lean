import KernelConsole.Proofs.Console.Draining
import KernelConsole.Proofs.Console.FanOut
import KernelConsole.Proofs.Uart.Programming

/-!
# Bringing Up a Console on a Bench

A console for the default settings drives the devices of a bench, and still does when it
has been brought up. It then has a serial port only if the bench has one, as an empty
socket reads as all ones, and its cursor is on the screen, wherever the controller had
it.

## Main definitions

* `Bench.Wrote`: A bench after port writes.

## Theorems

* `Screen.init_cursor`: The cursor that is taken over.
* `Keyboard.poll_decoder`, `Console.keyboardInterrupt_devices`: A look at the keyboard
  leaves the devices where they are.
* `Uart.init_bench`: Programming the serial port, whether it is there or not.
* `Console.init_onBench`: The console afterwards.
-/

namespace KernelConsole

open Prog

variable {σ : Type} {fuel : Nat}

/-- The cursor is taken over from the controller, but never from beyond the screen. -/
theorem Screen.init_cursor (screen : Screen) {h : Handler Reporting σ} {s : σ} :
    screen.init.Ensures h fuel s fun screen' _ => screen'.cursor.toNat < Screen.cells := by
  refine ensures_bind fun adapter s₁ _ => ensures_bind fun _ s₂ _ => ?_
  exact ensures_bind fun pos s₃ _ => ensures_pure (min_cursor_lt pos)

theorem Keyboard.handle_decoder (k : Keyboard) (scancode : UInt8) {h : Handler Reporting σ}
    {s : σ} : (k.handle scancode).Ensures h fuel s
      fun v _ => ∃ decoder, v.2 = { k with decoder } := by
  unfold handle
  by_cases hreset : (k.decoder.feed scancode).2.takeReset.1 = true
  · simp only [if_pos hreset]
    exact ensures_bind fun _ s₁ _ => ensures_bind fun _ s₂ _ => ensures_pure ⟨_, rfl⟩
  · simp only [if_neg hreset]
    exact ensures_pure ⟨_, rfl⟩

theorem Keyboard.poll_decoder (k : Keyboard) {h : Handler Reporting σ} {s : σ} :
    k.poll.Ensures h fuel s fun v _ => ∃ decoder, v.2 = { k with decoder } := by
  unfold poll
  refine ensures_bind fun status s₁ _ => ?_
  by_cases hempty : status &&& Keyboard.waiting = 0
  · simp only [if_pos hempty]
    exact ensures_pure ⟨k.decoder, rfl⟩
  · simp only [if_neg hempty]
    refine ensures_bind fun scancode s₂ _ => ?_
    exact ensures_bind (ensures_mono (k.handle_decoder scancode) fun v s₃ hv => ensures_pure hv)

namespace Console

/-- A look at the keyboard changes the decoder and the queue. -/
theorem keyboardInterrupt_devices (c : Console) {h : Handler Reporting σ} {s : σ} :
    c.keyboardInterrupt.Ensures h fuel s fun c' _ => ∃ decoder queue,
      c' = { c with keyboard := { c.keyboard with decoder }, queue } := by
  unfold keyboardInterrupt
  refine ensures_iterate (fun d _ => ∃ decoder queue,
    d = { c with keyboard := { c.keyboard with decoder }, queue })
    ⟨c.keyboard.decoder, c.queue, rfl⟩ ?_
  rintro _ s₁ ⟨decoder, queue, rfl⟩
  refine ensures_bind (ensures_mono (Keyboard.poll_decoder _) ?_)
  rintro ⟨event?, _⟩ s₂ ⟨decoder', rfl⟩
  cases event? with
  | none => exact ensures_pure ⟨decoder', queue, rfl⟩
  | some event =>
      exact ensures_pure ⟨decoder', enqueueEvent_queue _ event⟩

end Console

namespace Bench

/-- An empty socket reads as all ones. -/
theorem readPort_absent {b : Bench} (h : b.uartPresent = false) :
    (b.readPort (uartPort + 5)).1 = 0xFF := by
  unfold readPort portValue
  rw [if_neg (by decide), if_neg (by decide), if_neg (by decide),
    if_pos ⟨by decide, by decide, by simp [h]⟩]
  rfl

/-- And a serial port that is there never does. -/
theorem lineStatus_ne (b : Bench) : b.lineStatus ≠ 0xFF := by
  unfold lineStatus
  cases b.received.isEmpty <;> cases b.transmitReady <;> decide

/-- The bytes `ws` were written to ports since, in this order. No port was read, nothing that
    waits was taken, and no cell has changed. -/
structure Wrote (b : Bench) (ws : List (UInt16 × UInt8)) (b' : Bench) : Prop where
  writes : b'.writes.toList = b.writes.toList ++ ws
  reads : b'.reads = b.reads
  inlet : b'.inlet = b.inlet
  memory : b'.memory = b.memory
  colorPresent : b'.colorPresent = b.colorPresent

theorem Wrote.refl (b : Bench) : b.Wrote [] b where
  writes := (List.append_nil _).symm
  reads := rfl
  inlet := rfl
  memory := rfl
  colorPresent := rfl

theorem Wrote.write {b e : Bench} {ws : List (UInt16 × UInt8)} (h : b.Wrote ws e) (port : UInt16)
    (value : UInt8) : b.Wrote (ws ++ [(port, value)]) (e.writePort port value) := by
  rcases e.writePort_state port value with ⟨_, hstate⟩
  rw [hstate]
  refine ⟨?_, h.reads, h.inlet, h.memory, h.colorPresent⟩
  rw [Array.toList_push, h.writes, List.append_assoc]

end Bench

/-- A serial port is found exactly where there is one. If there is one, the first byte that
    waits is thrown away with what else an earlier owner left behind. If there is none, all
    that is read is the status. -/
theorem Uart.init_bench {u : Uart} (hbase : u.base = Bench.uartPort) (b : Bench) :
    u.init.Returns Bench.respond.handler fuel b fun u' b' =>
      u' = { u with present := b.uartPresent } ∧ ∃ e, b.Wrote u.programWrites e ∧
        e.Looked
          ((Bench.uartPort + 5) ::
            if b.uartPresent then [Bench.uartPort + 2, Bench.uartPort] else [])
          { b.inlet with
            received := if b.uartPresent then b.received.tail else b.received } b' := by
  have hwrite : ∀ {e : Bench} {ws : List (UInt16 × UInt8)}, b.Wrote ws e →
      ∀ (r : Register) (value : UInt8), (writeReg r value).Returns Bench.respond.handler fuel e
        fun _ e' => b.Wrote (ws ++ [(r.port, value)]) e' :=
    fun he r value => returns_access _ (he.write r.port value)
  unfold init
  refine returns_bind (returns_mono (hwrite (.refl b) _ _) fun _ b₁ h₁ => ?_)
  refine returns_bind (returns_mono (hwrite h₁ _ _) fun _ b₂ h₂ => ?_)
  refine returns_bind (returns_mono (hwrite h₂ _ _) fun _ b₃ h₃ => ?_)
  refine returns_bind (returns_mono (hwrite h₃ _ _) fun _ b₄ h₄ => ?_)
  refine returns_bind (returns_mono (hwrite h₄ _ _) fun _ b₅ h₅ => ?_)
  refine returns_bind (returns_mono (hwrite h₅ _ _) fun _ b₆ h₆ => ?_)
  refine returns_bind (returns_mono (hwrite h₆ _ _) fun _ e he => ?_)
  -- So far the serial port was only written to. What follows looks at it.
  have hprogrammed : b.Wrote u.programWrites e := he
  have hline : (u.reg .lineStatus).port = Bench.uartPort + 5 := congrArg (· + 5) hbase
  have hid : (u.reg .interruptId).port = Bench.uartPort + 2 := congrArg (· + 2) hbase
  have hreceive : (u.reg .receive).port = Bench.uartPort := (UInt16.add_zero _).trans hbase
  have huart : e.uartPresent = b.uartPresent := congrArg Bench.Inlet.uartPresent he.inlet
  refine returns_bind (Console.readReg_bench ?_)
  rw [hline]
  cases hpresent : b.uartPresent with
  | false =>
      have hkept : (e.readPort (Bench.uartPort + 5)).2.inlet = b.inlet :=
        (e.inlet_readPort (by decide) (by decide)).trans he.inlet
      rw [Bench.readPort_absent (huart.trans hpresent), if_pos rfl]
      exact returns_pure ⟨rfl, e, hprogrammed, Bench.looked_readPort hkept⟩
  | true =>
      rcases Bench.readPort_lineStatus (huart.trans hpresent) with ⟨hstatus, hlooked₁⟩
      rw [hstatus, if_neg e.lineStatus_ne]
      generalize (e.readPort (Bench.uartPort + 5)).2 = e₁ at hlooked₁
      -- The interrupt is identified, and then a byte is read, whether one waits or not.
      refine returns_bind (Console.readReg_bench ?_)
      rw [hid]
      have hlooked₂ : e₁.Looked [Bench.uartPort + 2] b.inlet
          (e₁.readPort (Bench.uartPort + 2)).2 :=
        Bench.looked_readPort ((e₁.inlet_readPort (by decide) (by decide)).trans
          (hlooked₁.inlet.trans he.inlet))
      generalize (e₁.readPort (Bench.uartPort + 2)).2 = e₂ at hlooked₂
      refine returns_bind (Console.readReg_bench ?_)
      rw [hreceive]
      have hpresent₂ : e₂.uartPresent = true :=
        (congrArg Bench.Inlet.uartPresent hlooked₂.inlet).trans hpresent
      have hreceived₂ : e₂.received = b.received := congrArg Bench.Inlet.received hlooked₂.inlet
      have hlooked₃ := (Bench.readPort_receive hpresent₂).2
      rw [hreceived₂, hlooked₂.inlet] at hlooked₃
      exact returns_pure ⟨rfl, e, hprogrammed, (hlooked₁.trans hlooked₂).trans hlooked₃⟩

namespace Console

/-- A console that drives the devices of a bench still does when it has been brought up,
    and its cursor is on the screen. -/
theorem init_onBench {c : Console} {b : Bench} (hc : c.OnBench b) (b' : Bench)
    (records : List Record) :
    c.init.Ensures Bench.respond.handler.keepingRecords fuel (b', records) fun c' s' =>
      c'.OnBench s'.1 ∧ c'.screen.cursor.toNat < Screen.cells := by
  refine ensures_bind (ensures_mono c.screen.init_cursor fun screen s₁ hcursor => ?_)
  refine ensures_bind (ensures_mono (keyboardInterrupt_devices _) ?_)
  rintro _ ⟨b₂, r₂⟩ ⟨decoder, queue, rfl⟩
  refine ensures_bind (ensures_unreported fun uart b₃ hrun => ?_)
  obtain ⟨rfl, e, _, hlooked⟩ := (Uart.init_bench hc.uart b₂).of_run hrun
  -- Programming the serial port takes bytes from it but does not take it away.
  have hpresent : b₂.uartPresent = true → b₃.uartPresent = true := fun hthere =>
    (congrArg Bench.Inlet.uartPresent hlooked.inlet).trans hthere
  by_cases hfound : b₂.uartPresent = true
  · simp only [if_pos hfound]
    exact ensures_pure
      ⟨⟨hc.uart, hc.printer, hc.keyboardStatus, hc.keyboardData, hpresent⟩, hcursor⟩
  · simp only [if_neg hfound]
    refine ensures_bind fun _ ⟨b₄, r₄⟩ _ => ensures_unreported fun c' b₅ hrun => ?_
    obtain ⟨screen', rfl, hcursor'⟩ := (writeBytes_after _ hcursor b₄).of_run hrun
    exact ⟨⟨hc.uart, hc.printer, hc.keyboardStatus, hc.keyboardData, fun h => absurd h hfound⟩,
      hcursor'⟩

/-- A console for the default settings drives the devices of a bench. -/
theorem ofSettings_onBench {c : Console} (h : ofSettings {} = .ok c) (b : Bench) :
    c.OnBench b := by
  -- The default settings are those of the bench, so this can be computed.
  have hdefault : (ofSettings {}).toOption.map (fun c => (c.uart.base, c.printer.base,
      c.keyboard.statusPort, c.keyboard.dataPort, c.uart.present)) =
      some (Bench.uartPort, Bench.printerPort, Bench.keyboardStatusPort, Bench.keyboardDataPort,
        false) := by decide
  rw [h] at hdefault
  have hports := Option.some.inj hdefault
  simp only [Prod.mk.injEq] at hports
  obtain ⟨huart, hprinter, hstatus, hdata, hpresent⟩ := hports
  exact ⟨huart, hprinter, hstatus, hdata, fun hfound => absurd (hfound.symm.trans hpresent) nofun⟩

end Console

end KernelConsole
