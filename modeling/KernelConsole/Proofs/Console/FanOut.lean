import Mathlib.Data.List.Forall2
import KernelConsole.Proofs.Console.Showing
import KernelConsole.Proofs.Screen.Safety

/-!
# What Goes Out to the Devices

Every byte that is written goes to the serial port, the printer and the screen: one
write, three writes, and the four that show the cursor. The devices may be busy, stuck
or absent, and may change their minds at every read. They are asked a bounded number of
times, and whatever they answer, the writes are the same.

What the devices answer does not leak into anything else either. Two machines whose
registers read differently, but which are otherwise alike, see the same writes, the same
accesses to memory, and leave the console in the same state.

## Main definitions

* `Console.Drives`: A console drives the devices of some settings.
* `Settings.byteWrites`, `Screen.cursorWrites`: The port writes that a byte and a cursor
  are.
* `Console.textWrites`: The port writes of a text, byte by byte.
* `PortTraffic`: The port writes of some events, and a bound on their port reads.

## Theorems

* `Console.ofSettings_drives`: What a new console drives.
* `waitForBits_traffic`: Waiting writes nothing and asks a bounded number of times.
* `Console.output_traffic`, `Console.writeBytes_traffic`: The port traffic of output.
* `Console.output_after`, `Console.writeBytes_after`: The console after output.
* `Console.writeBytes_mirrors`: Output on two machines that only read differently.
* `Console.output_fans_out`: Both, for any text.
-/

namespace KernelConsole

open Prog

variable {σ τ : Type} {bus : Bus σ} {fuel : Nat}

/-- Some events write to ports exactly as given, and read ports at most so often. -/
structure PortTraffic (writes : List (UInt16 × UInt8)) (reads : Nat) (events : List Event) :
    Prop where
  /-- The writes, in order. -/
  writes_eq : events.filterMap Event.portWrite? = writes
  /-- At most so many reads. -/
  reads_le : events.countP Event.isPortRead ≤ reads

namespace PortTraffic

theorem nil (n : Nat) : PortTraffic [] n [] := ⟨rfl, Nat.zero_le n⟩

/-- Traffic one after the other is the writes in order and the bounds together. -/
theorem append {ws vs : List (UInt16 × UInt8)} {m n : Nat} {es fs : List Event}
    (he : PortTraffic ws m es) (hf : PortTraffic vs n fs) :
    PortTraffic (ws ++ vs) (m + n) (es ++ fs) := by
  refine ⟨?_, ?_⟩
  · rw [List.filterMap_append, he.writes_eq, hf.writes_eq]
  · rw [List.countP_append]
    exact Nat.add_le_add he.reads_le hf.reads_le

theorem mono {ws : List (UInt16 × UInt8)} {m n : Nat} {es : List Event}
    (he : PortTraffic ws m es) (hmn : m ≤ n) : PortTraffic ws n es :=
  ⟨he.writes_eq, Nat.le_trans he.reads_le hmn⟩

theorem write (r : Register) (value : UInt8) :
    PortTraffic [(r.port, value)] 0 [.regWrite r value] := ⟨rfl, Nat.le_refl 0⟩

theorem read (r : Register) (value : UInt8) : PortTraffic [] 1 [.regRead r value] :=
  ⟨rfl, Nat.le_refl 1⟩

/-- Accesses to memory are no port traffic. -/
theorem memory {events : List Event} (h : ∀ e ∈ events, e.port? = none) :
    PortTraffic [] 0 events := by
  have hquiet : ∀ e ∈ events, e.portWrite? = none ∧ e.isPortRead = false := by
    intro e he
    have hport := h e he
    cases e with
    | regRead r value => cases hport
    | regWrite r value => cases hport
    | cellRead address cell => exact ⟨rfl, rfl⟩
    | cellWrite address cell => exact ⟨rfl, rfl⟩
  refine ⟨List.filterMap_eq_nil_iff.2 fun e he => (hquiet e he).1, Nat.le_of_eq ?_⟩
  rw [List.countP_eq_zero]
  exact fun e he => Bool.eq_false_iff.1 (hquiet e he).2

end PortTraffic

theorem readReg_traffic (r : Register) (m : σ) :
    (readReg r).Traces bus fuel m fun _ events _ => PortTraffic [] 1 events :=
  traces_access _ (PortTraffic.read r _)

theorem writeReg_traffic (r : Register) (value : UInt8) (m : σ) :
    (writeReg r value).Traces bus fuel m fun _ events _ =>
      PortTraffic [(r.port, value)] 0 events :=
  traces_access _ (PortTraffic.write r value)

/-- A delay reads four times. -/
theorem ioDelay_traffic (m : σ) :
    ioDelay.Traces bus fuel m fun _ events _ => PortTraffic [] 4 events := by
  refine traces_bind (traces_mono (readReg_traffic _ m) fun _ e₁ m₁ h₁ => ?_)
  refine traces_bind (traces_mono (readReg_traffic _ m₁) fun _ e₂ m₂ h₂ => ?_)
  refine traces_bind (traces_mono (readReg_traffic _ m₂) fun _ e₃ m₃ h₃ => ?_)
  refine traces_bind (traces_mono (readReg_traffic _ m₃) fun _ e₄ m₄ h₄ => ?_)
  exact traces_pure (h₁.append (h₂.append (h₃.append (h₄.append (PortTraffic.nil 0)))))

/-- A device is asked at most as often as the limit says, and each time costs one read
    of its status and four of the diagnostic register. -/
theorem waitForBits_traffic (limit : UInt32) (r : Register) (mask : UInt8) (m : σ) :
    (waitForBits limit r mask).Traces bus fuel m fun _ events _ =>
      PortTraffic [] (5 * limit.toNat) events := by
  refine traces_bind (traces_mono (Q := fun _ events _ => PortTraffic [] (5 * limit.toNat) events)
    ?_ fun _ e _ he => traces_pure ((List.append_nil e).symm ▸ he))
  -- By induction on how often the device may still be asked.
  generalize limit.toNat = n
  induction n generalizing m with
  | zero => exact traces_pure (PortTraffic.nil 0)
  | succ n ih =>
      rw [spinUntil]
      refine traces_bind (traces_bind (traces_mono (readReg_traffic r m)
        fun status e₁ m₁ h₁ => traces_pure ?_))
      by_cases hready : (status &&& mask != 0) = true
      · simp only [if_pos hready, List.append_nil]
        exact traces_pure ((h₁.append (PortTraffic.nil 0)).mono (by omega))
      -- A no costs one read and a delay, and leaves one question less.
      · simp only [if_neg hready, List.append_nil]
        refine traces_bind (traces_mono (ioDelay_traffic m₁) fun _ e₂ m₂ h₂ => ?_)
        refine traces_mono (ih m₂) fun _ e₃ m₃ h₃ => ?_
        exact (h₁.append (h₂.append h₃)).mono (by omega)

/-- The port writes that send a byte to the serial port and to the printer. -/
def Settings.byteWrites (s : Settings) (byte : UInt8) : List (UInt16 × UInt8) :=
  [(s.uartBase, byte), (s.printerBase, byte), (s.printerBase + 2, 0x0D),
    (s.printerBase + 2, 0x08)]

theorem Uart.transmit_traffic (u : Uart) (byte : UInt8) (m : σ) :
    (u.transmit byte).Traces bus fuel m fun _ events _ =>
      PortTraffic [(u.base, byte)] (5 * u.spinLimit.toNat) events := by
  refine traces_bind (traces_mono (waitForBits_traffic _ _ _ m) fun _ e₁ m₁ h₁ => ?_)
  refine traces_mono (writeReg_traffic _ byte m₁) fun _ e₂ _ h₂ => ?_
  rw [show (u.reg .transmit).port = u.base from UInt16.add_zero u.base] at h₂
  exact h₁.append h₂

/-- A byte to the printer is three writes, after a wait: the byte, and the strobe on and off.
    -/
theorem Printer.transmit_traffic (p : Printer) (byte : UInt8) (m : σ) :
    (p.transmit byte).Traces bus fuel m fun _ events _ =>
      PortTraffic [(p.base, byte), (p.base + 2, 0x0D), (p.base + 2, 0x08)]
        (5 * p.spinLimit.toNat) events := by
  refine traces_bind (traces_mono (waitForBits_traffic _ _ _ m) fun _ e₁ m₁ h₁ => ?_)
  refine traces_bind (traces_mono (writeReg_traffic _ byte m₁) fun _ e₂ m₂ h₂ => ?_)
  refine traces_bind (traces_mono (writeReg_traffic _ strobe m₂) fun _ e₃ m₃ h₃ => ?_)
  refine traces_mono (writeReg_traffic _ selected m₃) fun _ e₄ _ h₄ => ?_
  rw [show (p.reg .data).port = p.base from UInt16.add_zero p.base] at h₂
  exact h₁.append (h₂.append (h₃.append h₄))

namespace Screen

/-- The port writes that show the cursor. -/
def cursorWrites (s : Screen) : List (UInt16 × UInt8) :=
  [(s.adapter.crtcPort, 14), (s.adapter.crtcPort + 1, (s.cursor >>> 8).toUInt8),
    (s.adapter.crtcPort, 15), (s.adapter.crtcPort + 1, s.cursor.toUInt8)]

/-- Drawing and showing the cursor writes to ports only for the cursor. -/
theorem Shown.traffic {s : Screen} {events : List Event} (h : s.Shown events) :
    PortTraffic s.cursorWrites 0 events := by
  rcases h with ⟨drawn, rfl, hdrawn⟩
  have hshown : PortTraffic s.cursorWrites 0 s.cursorEvents := ⟨rfl, Nat.le_refl 0⟩
  exact (PortTraffic.memory fun e he => (hdrawn e he).1).append hshown

/-- A character is drawn without port traffic, and then the cursor is shown. -/
theorem putChar_traffic {s : Screen} (h : s.cursor.toNat < cells) (c : UInt8) (m : σ) :
    (s.putChar c).Traces bus fuel m fun s' events _ =>
      s' = s.after c ∧ PortTraffic (s.after c).cursorWrites 0 events := by
  refine traces_mono (putChar_shown h c m) ?_
  rintro _ events _ ⟨rfl, hshown⟩
  exact ⟨rfl, hshown.traffic⟩

end Screen

namespace Console

/-- The console drives the devices of some settings. What it found out about them, and
    the rest of its state, may be anything. -/
structure Drives (c : Console) (s : Settings) : Prop where
  /-- Its serial port is where they say. -/
  uartBase : c.uart.base = s.uartBase
  /-- It is asked as often as they say. -/
  uartLimit : c.uart.spinLimit = s.spinLimit
  /-- Its printer is theirs. -/
  printer : c.printer = Printer.ofSettings s

/-- A console that was made for some settings drives their devices. -/
theorem ofSettings_drives {s : Settings} {c : Console} (h : ofSettings s = .ok c) :
    c.Drives s := by
  rcases ofSettings_eq_ok h with ⟨_, _, huart, rfl⟩
  rcases Uart.ofSettings_eq_ok huart with ⟨divisor, _, rfl⟩
  exact ⟨rfl, rfl, rfl⟩

/-- The port writes of a text, byte by byte: each byte to the serial port and the
    printer, and the cursor after it. -/
def textWrites (s : Settings) (screen : Screen) : List UInt8 → List (List (UInt16 × UInt8))
  | [] => []
  | byte :: rest =>
      (s.byteWrites byte ++ (screen.after byte).cursorWrites) ::
        textWrites s (screen.after byte) rest

/-- The port traffic of one byte, and the console after it. -/
theorem output_traffic {s : Settings} {c : Console} (hdrives : c.Drives s)
    (hcursor : c.screen.cursor.toNat < Screen.cells) (byte : UInt8) (m : σ) :
    (c.output byte).Traces bus fuel m fun c' events _ =>
      c' = { c with screen := c.screen.after byte } ∧
      PortTraffic (s.byteWrites byte ++ (c.screen.after byte).cursorWrites)
        (10 * s.spinLimit.toNat) events := by
  refine traces_bind (traces_mono (c.uart.transmit_traffic byte m) fun _ e₁ m₁ h₁ => ?_)
  refine traces_bind (traces_mono (c.printer.transmit_traffic byte m₁) fun _ e₂ m₂ h₂ => ?_)
  refine traces_bind (traces_mono (Screen.putChar_traffic hcursor byte m₂)
    fun screen e₃ m₃ ⟨hscreen, h₃⟩ => ?_)
  -- The traffic was told by the console's own ports, and these are those of the settings.
  rw [hdrives.uartBase, hdrives.uartLimit] at h₁
  rw [hdrives.printer] at h₂
  refine traces_pure ⟨by rw [hscreen], ?_⟩
  rw [List.append_nil]
  exact (h₁.append (h₂.append h₃)).mono (by simp only [Printer.ofSettings]; omega)

/-- The events of a text come in parts, one for each byte. -/
theorem writeBytes_traffic {s : Settings} (bytes : List UInt8) {c : Console}
    (hdrives : c.Drives s) (hcursor : c.screen.cursor.toNat < Screen.cells) (m : σ) :
    (c.writeBytes bytes).Traces bus fuel m fun c' events _ =>
      c' = { c with screen := c.screen.afterAll bytes } ∧
      ∃ parts, events = parts.flatten ∧
        List.Forall₂ (fun writes part => PortTraffic writes (10 * s.spinLimit.toNat) part)
          (textWrites s c.screen bytes) parts := by
  induction bytes generalizing c m with
  | nil => exact traces_pure ⟨rfl, [], rfl, .nil⟩
  | cons byte rest ih =>
      refine traces_bind (traces_mono (output_traffic hdrives hcursor byte m)
        fun c₁ e₁ m₁ ⟨hc₁, h₁⟩ => ?_)
      subst hc₁
      have hdrives₁ : Drives { c with screen := c.screen.after byte } s :=
        ⟨hdrives.uartBase, hdrives.uartLimit, hdrives.printer⟩
      refine traces_mono (ih hdrives₁ (Screen.after_lt hcursor byte) m₁)
        fun c₂ e₂ m₂ ⟨hc₂, parts, he₂, h₂⟩ => ?_
      exact ⟨hc₂, e₁ :: parts, by rw [he₂, List.flatten_cons], .cons h₁ h₂⟩

/-- Whatever the hardware, writing a byte ends and changes the screen alone. -/
theorem output_after {c : Console} (h : c.screen.cursor.toNat < Screen.cells) (byte : UInt8)
    (m : σ) : (c.output byte).Returns bus.handler fuel m fun c' _ =>
      c' = { c with screen := c.screen.after byte } := by
  refine returns_bind (returns_mono (c.uart.transmit_returns (K := fun _ => True)
    (fun _ _ _ => trivial) (fun _ _ _ _ => trivial) byte trivial) fun _ m₁ _ => ?_)
  refine returns_bind (returns_mono (c.printer.transmit_returns (K := fun _ => True)
    (fun _ _ _ => trivial) (fun _ _ _ _ => trivial) byte trivial) fun _ m₂ _ => ?_)
  refine returns_bind (returns_mono (Screen.putChar_traffic h byte m₂).returns ?_)
  rintro _ m₃ ⟨_, rfl, _⟩
  exact returns_pure rfl

theorem writeBytes_after (bytes : List UInt8) {c : Console}
    (h : c.screen.cursor.toNat < Screen.cells) (m : σ) :
    (c.writeBytes bytes).Returns bus.handler fuel m fun c' _ =>
      ∃ screen, c' = { c with screen } ∧ screen.cursor.toNat < Screen.cells := by
  induction bytes generalizing c m with
  | nil => exact returns_pure ⟨c.screen, rfl, h⟩
  | cons byte rest ih =>
      refine returns_bind (returns_mono (output_after h byte m) ?_)
      rintro _ m₁ rfl
      exact ih (Screen.after_lt h byte) m₁

/-- Two consoles have the same output devices, in the same state. -/
structure SameOutput (c d : Console) : Prop where
  uart : c.uart = d.uart
  printer : c.printer = d.printer
  screen : c.screen = d.screen

theorem SameOutput.refl (c : Console) : SameOutput c c := ⟨rfl, rfl, rfl⟩

section TwoMachines

variable {bus' : Bus τ} {R : σ → τ → Prop} {m : σ} {m' : τ}

/-- Waiting for a device may take longer on the one machine than on the other. -/
theorem waitForBits_mirrors (halike : bus.AlikeButReads bus' R) (limit : UInt32) (r : Register)
    (mask : UInt8) (hR : R m m') :
    (waitForBits limit r mask).Mirrors bus.handler fuel m bus'.handler fuel
      (waitForBits limit r mask) m' fun _ s _ t => R s t := by
  -- First the one machine waits and then the other, so what the other keeps has to hold
  -- beside any state of the one.
  have hleft : (waitForBits limit r mask).Ensures bus.handler fuel m fun _ s => R s m' := by
    intro a s hrun
    exact (waitForBits_returns (K := fun s => R s m') (fun r s hs => halike.left r s m' hs)
      limit r mask hR).of_run hrun
  have hright : (waitForBits limit r mask).Returns bus'.handler fuel m'
      fun _ t => ∀ s, R s m' → R s t :=
    waitForBits_returns (K := fun t => ∀ s, R s m' → R s t)
      (fun r t hkept s hs => halike.right r s t (hkept s hs)) limit r mask fun _ hs => hs
  exact mirrors_mono (mirrors_apart hleft hright) fun _ s _ t ⟨hs, hkept⟩ => hkept s hs

/-- One byte on two machines that only read differently, written by two consoles with the
    same output devices. -/
theorem output_mirrors (halike : bus.AlikeButReads bus' R) {c d : Console} (hcd : SameOutput c d)
    (byte : UInt8) (hR : R m m') :
    (c.output byte).Mirrors bus.handler fuel m bus'.handler fuel (d.output byte) m'
      fun c' s d' t => (∃ screen, c' = { c with screen } ∧ d' = { d with screen }) ∧ R s t := by
  -- What comes after a wait reads no register.
  have hwrite : ∀ {m m'} (r : Register) (value : UInt8), R m m' →
      (writeReg r value).Mirrors bus.handler fuel m bus'.handler fuel (writeReg r value) m'
        fun _ s _ t => R s t :=
    fun r value hR => mirrors_mono (Only.mirrors_alike halike (Only.one rfl) hR)
      fun _ _ _ _ hst => hst.2
  have hchar : ∀ {m m'}, R m m' →
      (c.screen.putChar byte).Mirrors bus.handler fuel m bus'.handler fuel
        (c.screen.putChar byte) m' fun s₁ s s₂ t => s₁ = s₂ ∧ R s t :=
    fun hR => Only.mirrors_alike halike (Screen.putChar_only trivial (fun _ => rfl)
      (fun _ _ => rfl) (fun _ _ => rfl) (fun _ _ => rfl) c.screen byte) hR
  unfold output
  rw [← hcd.uart, ← hcd.printer, ← hcd.screen]
  -- The serial port, then the printer with its three writes, then the screen.
  refine mirrors_bind (mirrors_bind (mirrors_mono (waitForBits_mirrors halike _ _ _ hR)
    fun _ s₁ _ t₁ h₁ => mirrors_mono (hwrite _ _ h₁) fun _ s₂ _ t₂ h₂ => ?_))
  refine mirrors_bind (mirrors_bind (mirrors_mono (waitForBits_mirrors halike _ _ _ h₂)
    fun _ s₃ _ t₃ h₃ => mirrors_bind (mirrors_mono (hwrite _ _ h₃) fun _ s₄ _ t₄ h₄ =>
      mirrors_bind (mirrors_mono (hwrite _ _ h₄) fun _ s₅ _ t₅ h₅ =>
        mirrors_mono (hwrite _ _ h₅) fun _ s₆ _ t₆ h₆ => ?_))))
  refine mirrors_bind (mirrors_mono (hchar h₆) ?_)
  rintro screen s₇ _ t₇ ⟨rfl, h₇⟩
  exact mirrors_pure ⟨⟨screen, rfl, by rw [hcd.uart, hcd.printer]⟩, h₇⟩

/-- Bytes one after the other, each from the same output devices on both sides. -/
theorem writeBytes_mirrors (halike : bus.AlikeButReads bus' R) (bytes : List UInt8)
    {c d : Console} (hcd : SameOutput c d) (hR : R m m') :
    (c.writeBytes bytes).Mirrors bus.handler fuel m bus'.handler fuel (d.writeBytes bytes) m'
      fun c' s d' t => (∃ screen, c' = { c with screen } ∧ d' = { d with screen }) ∧ R s t := by
  induction bytes generalizing c d m m' with
  | nil => exact mirrors_pure ⟨⟨c.screen, rfl, by rw [hcd.screen]⟩, hR⟩
  | cons byte rest ih =>
      refine mirrors_bind (mirrors_mono (output_mirrors halike hcd byte hR) ?_)
      rintro _ m₁ _ m₁' ⟨⟨screen, rfl, rfl⟩, h₁⟩
      exact ih ⟨hcd.uart, hcd.printer, rfl⟩ h₁

end TwoMachines

/-- Whatever its devices answer, a console writes each byte of a text to the serial port
    and the printer and then shows the cursor, in this order and nothing else, asks at
    most `10 * s.spinLimit` times for each, and ends. And on two machines that only differ
    in what registers read as, it ends in the same state, after the same events but for
    those reads, among them every access to memory. -/
theorem output_fans_out {s : Settings} {c : Console} (hdrives : c.Drives s)
    (hcursor : c.screen.cursor.toNat < Screen.cells) (bytes : List UInt8) (fuel : Nat) :
    (∀ {σ : Type} (bus : Bus σ) (m : σ), ∃ parts m',
      bus.trace fuel (c.writeBytes bytes) m =
        .ok ({ c with screen := c.screen.afterAll bytes }, parts.flatten, m') ∧
      List.Forall₂ (fun writes part => PortTraffic writes (10 * s.spinLimit.toNat) part)
        (textWrites s c.screen bytes) parts) ∧
    ∀ {σ τ : Type} (bus : Bus σ) (bus' : Bus τ) (R : σ → τ → Prop),
      bus.AlikeButReads bus' R → ∀ m m', R m m' → ∃ c' events events' after after',
        bus.trace fuel (c.writeBytes bytes) m = .ok (c', events, after) ∧
        bus'.trace fuel (c.writeBytes bytes) m' = .ok (c', events', after') ∧
        events.filter (!·.isPortRead) = events'.filter (!·.isPortRead) ∧ R after after' := by
  have htraces : ∀ {σ : Type} (bus : Bus σ) (m : σ), (c.writeBytes bytes).Traces bus fuel m _ :=
    fun bus m => writeBytes_traffic bytes hdrives hcursor m
  refine ⟨fun bus m => ?_, fun bus bus' R halike m m' hR => ?_⟩
  · rcases (htraces bus m).trace with ⟨c', events, m', htrace, rfl, parts, rfl, htraffic⟩
    exact ⟨parts, m', htrace, htraffic⟩
  · rcases (htraces bus m).trace with ⟨c', events, after, htrace, _⟩
    -- Two analysers that have noted nothing agree on it.
    have hstart : SameButReads R (m, []) (m', []) := ⟨hR, rfl⟩
    have hmirrors : (c.writeBytes bytes).Mirrors bus.recording.handler fuel (m, [])
        bus'.recording.handler fuel (c.writeBytes bytes) (m', [])
        fun c₁ s c₂ t => c₁ = c₂ ∧ SameButReads R s t :=
      mirrors_mono (writeBytes_mirrors halike.recording bytes (SameOutput.refl c) hstart)
        fun _ _ _ _ ⟨⟨_, hc, hd⟩, hst⟩ => ⟨hc.trans hd.symm, hst⟩
    rcases hmirrors.trace htrace with ⟨events', after', htrace', hsame, hafter⟩
    exact ⟨c', events, events', after, after', htrace, htrace', hsame, hafter⟩

/-- Memory in a machine whose registers read as a script says, one value for each read,
    wherever it goes. -/
def scriptedReads (script : Nat → UInt8) : Bus (Memory × Nat)
  | .readReg _, m => (script m.2, m.1, m.2 + 1)
  | .writeReg _ _, m => ((), m)
  | .readCell address, m => (m.1.read address, m)
  | .writeCell address cell, m => ((), m.1.write address cell, m.2)

/-- Two scripts make machines that only differ in what registers read as. -/
theorem alike_scriptedReads (script script' : Nat → UInt8) :
    (scriptedReads script).AlikeButReads (scriptedReads script') fun m m' => m.1 = m'.1 where
  left _ _ _ h := h
  right _ _ _ h := h
  both a hother m m' h := by
    cases a with
    | readReg r => cases hother
    | writeReg r value => exact ⟨rfl, h⟩
    | readCell address => exact ⟨congrArg (Memory.read · address) h, h⟩
    | writeCell address cell => exact ⟨rfl, congrArg (Memory.write · address cell) h⟩

/-- A console for the default settings that has found a serial port, with the cursor in the
    last cell. -/
def lastCell : Console where
  uart := ⟨0x3F8, 12, 12800, true⟩
  printer := Printer.ofSettings {}
  screen := { cursor := 1999 }
  keyboard := Keyboard.ofSettings {}
  queue := Ring.empty

/-- A letter in the last cell, with devices that are busy for ever, and with none at
    all. -/
theorem output_fans_out_last_cell :
    lastCell.Drives {} ∧ lastCell.screen.cursor.toNat < Screen.cells ∧
    (∃ part m', (scriptedReads fun _ => 0).trace 0 (lastCell.writeBytes [0x41])
        (Memory.empty, 0) = .ok ({ lastCell with screen := { cursor := 1920 } }, part, m') ∧
      part.filterMap Event.portWrite? =
        [(0x3F8, 0x41), (0x378, 0x41), (0x37A, 0x0D), (0x37A, 0x08),
          (0x3D4, 14), (0x3D5, 0x07), (0x3D4, 15), (0x3D5, 0x80)] ∧
      part.countP Event.isPortRead ≤ 128000) ∧
    ∃ c' events events' after after',
      (scriptedReads fun _ => 0).trace 0 (lastCell.writeBytes [0x41]) (Memory.empty, 0) =
        .ok (c', events, after) ∧
      (scriptedReads fun _ => 0xFF).trace 0 (lastCell.writeBytes [0x41]) (Memory.empty, 0) =
        .ok (c', events', after') ∧
      events.filter (!·.isPortRead) = events'.filter (!·.isPortRead) ∧ after.1 = after'.1 := by
  -- Finding a serial port and drawing change nothing about which devices those are.
  have hnew : ofSettings {} =
      .ok { lastCell with uart := ⟨0x3F8, 12, 12800, false⟩, screen := {} } := rfl
  have hmade := ofSettings_drives hnew
  have hdrives : lastCell.Drives {} := ⟨hmade.uartBase, hmade.uartLimit, hmade.printer⟩
  have hcursor : lastCell.screen.cursor.toNat < Screen.cells := by decide
  have hfans := output_fans_out hdrives hcursor [0x41] 0
  refine ⟨hdrives, hcursor, ?_, ?_⟩
  · rcases hfans.1 (scriptedReads fun _ => 0) (Memory.empty, 0) with ⟨parts, m', htrace, htraffic⟩
    rcases htraffic with _ | ⟨hpart, htail⟩
    cases htail
    refine ⟨_, m', htrace, ?_, ?_⟩
    · rw [List.flatten_singleton, hpart.writes_eq]
      decide
    · rw [List.flatten_singleton]
      exact hpart.reads_le
  · exact hfans.2 _ _ _ (alike_scriptedReads _ _) (Memory.empty, 0) (Memory.empty, 0) rfl

end Console

end KernelConsole
