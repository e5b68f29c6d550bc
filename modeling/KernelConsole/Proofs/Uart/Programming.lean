import KernelConsole.Proofs.Console.FanOut
import KernelConsole.Proofs.Settings

/-!
# The Programming of the UART

A UART has fewer ports than registers. A byte written to its first port is the low half
of the divisor while the divisor latch is open and a byte to send otherwise, and the next
port has the high half and the interrupt mask in the same way. Which it is hangs on the
last byte written to line control, so what a write means is known only from the writes
before it.

Programming the UART opens the latch, fills it and closes it again. Nothing that happens
on the serial line or at the printer afterwards opens it, so the line keeps its speed and
its format, and exactly what is sent gets into the transmit register. The printer needs
ports of its own for that, which is what the check of the settings is for.

## Main definitions

* `UartFile`: What has been written into the registers of a UART.
* `UartFile.write`, `UartFile.after`: The registers after a write, and after some events.
* `UartFile.Programmed`: They are programmed as some settings say.
* `Settings.RegistersFit`: No register is beyond the last port.
* `LineUse`: What is done to the serial port and to the printer.
* `Serves`: What the events of a use do to the registers.

## Theorems

* `UartFile.write_apart`: A write elsewhere leaves the registers alone.
* `UartFile.writeAll_program`: The registers after programming, whatever they were.
* `UartFile.programmed_after_init`: They are as the settings say.
* `LineUse.perform_serves`: What each use does to them.
* `Uart.stays_programmed`: What any uses do to them, at any moment between two.
-/

namespace KernelConsole

open Prog

/-- What has been written into the registers of a UART that hold what they are given. -/
structure UartFile where
  /-- The low byte of the divisor. -/
  divisorLow : UInt8
  /-- The high byte of the divisor. -/
  divisorHigh : UInt8
  lineControl : UInt8
  /-- Which interrupts are on. -/
  interruptEnable : UInt8
  /-- The bytes put into the transmit register, oldest first. -/
  sent : List UInt8
deriving DecidableEq

namespace UartFile

/-- The divisor latch is open. -/
def LatchOpen (file : UartFile) : Prop := file.lineControl &&& 0x80 ≠ 0

instance (file : UartFile) : Decidable file.LatchOpen := inferInstanceAs (Decidable (_ ≠ _))

/-- The divisor in the latch. -/
def divisor (file : UartFile) : Nat := 256 * file.divisorHigh.toNat + file.divisorLow.toNat

/-- The registers after a byte is written to the port at an offset from the first. The
    first two ports are the divisor while the latch is open. -/
def store (file : UartFile) (offset : UInt16) (value : UInt8) : UartFile :=
  if offset = 0 then
    if file.LatchOpen then { file with divisorLow := value }
    else { file with sent := file.sent ++ [value] }
  else if offset = 1 then
    if file.LatchOpen then { file with divisorHigh := value }
    else { file with interruptEnable := value }
  else if offset = 3 then { file with lineControl := value }
  else file

/-- The registers of a UART at a base port after a byte is written to some port. -/
def write (base : UInt16) (file : UartFile) (port : UInt16) (value : UInt8) : UartFile :=
  file.store (port - base) value

theorem store_divisorLow {file : UartFile} (h : file.LatchOpen) (value : UInt8) :
    file.store 0 value = { file with divisorLow := value } := if_pos h

theorem store_send {file : UartFile} (h : ¬file.LatchOpen) (value : UInt8) :
    file.store 0 value = { file with sent := file.sent ++ [value] } := if_neg h

theorem store_divisorHigh {file : UartFile} (h : file.LatchOpen) (value : UInt8) :
    file.store 1 value = { file with divisorHigh := value } := if_pos h

theorem store_interruptEnable {file : UartFile} (h : ¬file.LatchOpen) (value : UInt8) :
    file.store 1 value = { file with interruptEnable := value } := if_neg h

theorem store_lineControl (file : UartFile) (value : UInt8) :
    file.store 3 value = { file with lineControl := value } := rfl

/-- The registers that are not kept here are not changed by a write to any of theirs. -/
theorem store_other (file : UartFile) (value : UInt8) {offset : UInt16} (hfirst : offset ≠ 0)
    (hsecond : offset ≠ 1) (hcontrol : offset ≠ 3) : file.store offset value = file := by
  unfold store
  rw [if_neg hfirst, if_neg hsecond, if_neg hcontrol]

/-- The registers after some port writes. -/
def writeAll (base : UInt16) (file : UartFile) (writes : List (UInt16 × UInt8)) : UartFile :=
  writes.foldl (fun file w => file.write base w.1 w.2) file

/-- The registers after some events. -/
def after (base : UInt16) (file : UartFile) (events : List Event) : UartFile :=
  file.writeAll base (events.filterMap Event.portWrite?)

theorem after_append (base : UInt16) (file : UartFile) (events later : List Event) :
    file.after base (events ++ later) = (file.after base events).after base later := by
  unfold after writeAll
  rw [List.filterMap_append, List.foldl_append]

/-- The registers are programmed as some settings say. -/
structure Programmed (s : Settings) (file : UartFile) : Prop where
  /-- The divisor gives the speed of the line exactly. -/
  exact : file.divisor * s.baud.toNat = 115200
  /-- The latch is closed. -/
  closed : ¬file.LatchOpen
  /-- Words have eight data bits. -/
  eightBits : file.lineControl &&& 0x03 = 0x03
  /-- Only the receive interrupt is on. -/
  onReceive : file.interruptEnable = 0x01

end UartFile

namespace Settings

/-- No register of the serial port or of the printer is beyond the last port. -/
structure RegistersFit (s : Settings) : Prop where
  uart : s.uartBase.toNat + 5 < UInt16.size
  printer : s.printerBase.toNat + 2 < UInt16.size

/-- The UART of some settings answers at a port. -/
def UartAnswers (s : Settings) (port : UInt16) : Prop :=
  s.uartBase.toNat ≤ port.toNat ∧ port.toNat < s.uartBase.toNat + uartSpan

/-- Where the printer writes, the UART does not answer. -/
theorem printer_apart {s : Settings} (hoverlap : ¬s.PortsOverlap) (hfit : s.RegistersFit) :
    ¬s.UartAnswers s.printerBase ∧ ¬s.UartAnswers (s.printerBase + 2) := by
  have hfirst := hfit.printer
  -- Without this the control port could wrap round into the UART, which the check of the
  -- settings does not see.
  have hcontrol : (s.printerBase + 2).toNat = s.printerBase.toNat + 2 := by
    rw [UInt16.toNat_add]
    exact Nat.mod_eq_of_lt hfirst
  unfold PortsOverlap uartSpan printerSpan at hoverlap
  unfold UartAnswers uartSpan
  rw [hcontrol]
  omega

end Settings

namespace UartFile

/-- A write to a port that the UART does not answer at leaves its registers alone. -/
theorem write_apart {s : Settings} (hfit : s.RegistersFit) {port : UInt16}
    (h : ¬s.UartAnswers port) (file : UartFile) (value : UInt8) :
    file.write s.uartBase port value = file := by
  have hlast : s.uartBase.toNat + 5 < 65536 := hfit.uart
  -- The offset of a port below the first one wraps round, to beyond the last register.
  have hoffset : ∀ r : UInt16, r.toNat ≤ 5 → port - s.uartBase ≠ r := by
    rintro r hr rfl
    have hport : port.toNat = (port - s.uartBase).toNat + s.uartBase.toNat := by
      conv_lhs => rw [← UInt16.sub_add_cancel port s.uartBase]
      rw [UInt16.toNat_add]
      exact Nat.mod_eq_of_lt (by omega)
    unfold Settings.UartAnswers uartSpan at h
    omega
  exact store_other _ _ (hoffset 0 (by decide)) (hoffset 1 (by decide)) (hoffset 3 (by decide))

theorem write_offset (base : UInt16) (file : UartFile) (offset : UInt16) (value : UInt8) :
    file.write base (base + offset) value = file.store offset value := by
  unfold write
  rw [UInt16.add_comm, UInt16.add_sub_cancel]

/-- Only the writes of some events change the registers. -/
theorem after_of_traffic {base : UInt16} {writes : List (UInt16 × UInt8)} {n : Nat}
    {events : List Event} (h : PortTraffic writes n events) (file : UartFile) :
    file.after base events = file.writeAll base writes := by
  unfold after
  rw [h.writes_eq]

end UartFile

/-- The port writes that program a UART. -/
def Uart.programWrites (u : Uart) : List (UInt16 × UInt8) :=
  [(u.base + 2, 0), (u.base + 3, 0x80), (u.base + 0, u.divisor.toUInt8),
    (u.base + 1, (u.divisor >>> 8).toUInt8), (u.base + 3, 0x03), (u.base + 4, 0),
    (u.base + 1, 0x01)]

variable {σ : Type} {bus : Bus σ} {fuel : Nat}

/-- Programming a UART writes the same whether it is there or not. -/
theorem Uart.init_traffic (u : Uart) (m : σ) :
    u.init.Traces bus fuel m fun u' events _ =>
      (∃ present, u' = { u with present }) ∧ PortTraffic u.programWrites 3 events := by
  unfold init
  refine traces_bind (traces_mono (writeReg_traffic _ _ m) fun _ e₁ m₁ h₁ => ?_)
  refine traces_bind (traces_mono (writeReg_traffic _ _ m₁) fun _ e₂ m₂ h₂ => ?_)
  refine traces_bind (traces_mono (writeReg_traffic _ _ m₂) fun _ e₃ m₃ h₃ => ?_)
  refine traces_bind (traces_mono (writeReg_traffic _ _ m₃) fun _ e₄ m₄ h₄ => ?_)
  refine traces_bind (traces_mono (writeReg_traffic _ _ m₄) fun _ e₅ m₅ h₅ => ?_)
  refine traces_bind (traces_mono (writeReg_traffic _ _ m₅) fun _ e₆ m₆ h₆ => ?_)
  refine traces_bind (traces_mono (writeReg_traffic _ _ m₆) fun _ e₇ m₇ h₇ => ?_)
  -- The writes are over, and looking whether anybody is there only reads.
  refine traces_mono (Q := fun u' e _ => (∃ present, u' = { u with present }) ∧
    PortTraffic [] 3 e) ?_ fun u' e _ ⟨hu', he⟩ => ⟨hu', h₁.append (h₂.append (h₃.append
      (h₄.append (h₅.append (h₆.append (h₇.append he))))))⟩
  refine traces_bind (traces_mono (readReg_traffic _ m₇) fun status e₈ m₈ h₈ => ?_)
  by_cases habsent : status = 0xFF
  · rw [if_pos habsent]
    exact traces_pure ⟨⟨false, rfl⟩, (h₈.append (PortTraffic.nil 0)).mono (by decide)⟩
  · rw [if_neg habsent]
    refine traces_bind (traces_mono (readReg_traffic _ m₈) fun _ e₉ m₉ h₉ => ?_)
    refine traces_bind (traces_mono (readReg_traffic _ m₉) fun _ e₁₀ m₁₀ h₁₀ => ?_)
    exact traces_pure ⟨⟨true, rfl⟩, h₈.append (h₉.append (h₁₀.append (PortTraffic.nil 0)))⟩

/-- Looking for a byte writes nothing. -/
theorem Uart.tryReceive_traffic (u : Uart) (m : σ) :
    u.tryReceive.Traces bus fuel m fun _ events _ => PortTraffic [] 2 events := by
  unfold tryReceive
  refine traces_bind (traces_mono (readReg_traffic _ m) fun status e₁ m₁ h₁ => ?_)
  by_cases hempty : status &&& received = 0
  · rw [if_pos hempty]
    exact traces_pure ((h₁.append (PortTraffic.nil 0)).mono (by decide))
  · rw [if_neg hempty]
    refine traces_bind (traces_mono (readReg_traffic _ m₁) fun _ e₂ m₂ h₂ => ?_)
    exact traces_pure (h₁.append (h₂.append (PortTraffic.nil 0)))

namespace UartFile

variable {s : Settings}

/-- Programming a UART leaves the same behind whatever its registers held, and sends
    nothing. -/
theorem writeAll_program (u : Uart) (file : UartFile) :
    file.writeAll u.base u.programWrites =
      { divisorLow := u.divisor.toUInt8, divisorHigh := (u.divisor >>> 8).toUInt8,
        lineControl := 0x03, interruptEnable := 0x01, sent := file.sent } := by
  -- Line control alone decides where the first two ports lead.
  have hopen : (0x80 : UInt8) &&& 0x80 ≠ 0 := by decide
  have hclosed : ¬(0x03 : UInt8) &&& 0x80 ≠ 0 := by decide
  have hlow : LatchOpen { file with lineControl := 0x80 } := hopen
  have hhigh : LatchOpen { file with lineControl := 0x80, divisorLow := u.divisor.toUInt8 } :=
    hopen
  have hmask : ¬LatchOpen { file with
      lineControl := 0x03, divisorLow := u.divisor.toUInt8,
      divisorHigh := (u.divisor >>> 8).toUInt8 } := hclosed
  unfold writeAll Uart.programWrites
  simp only [List.foldl_cons, List.foldl_nil, write_offset]
  rw [store_other file 0 (by decide) (by decide) (by decide), store_lineControl file,
    store_divisorLow hlow, store_divisorHigh hhigh, store_lineControl,
    store_other _ 0 (by decide) (by decide) (by decide), store_interruptEnable hmask]

/-- The latch holds the divisor of the UART after programming. -/
theorem divisor_program (u : Uart) (file : UartFile) :
    (file.writeAll u.base u.programWrites).divisor = u.divisor.toNat := by
  rw [writeAll_program, divisor]
  exact toNat_halves u.divisor

theorem programmed_after_init {u : Uart} (hexact : u.divisor.toNat * s.baud.toNat = 115200)
    (file : UartFile) :
    Programmed s (file.writeAll u.base u.programWrites) ∧
      (file.writeAll u.base u.programWrites).sent = file.sent := by
  have hdivisor := divisor_program u file
  rw [writeAll_program] at hdivisor ⊢
  refine ⟨⟨?_, (by decide : ¬(0x03 : UInt8) &&& 0x80 ≠ 0),
    (by decide : (0x03 : UInt8) &&& 0x03 = 0x03), rfl⟩, rfl⟩
  rw [hdivisor]
  exact hexact

/-- While the latch is closed, a byte to the first port is sent. -/
theorem Programmed.send {file : UartFile} (h : Programmed s file) (base : UInt16) (byte : UInt8) :
    file.writeAll base [(base, byte)] = { file with sent := file.sent ++ [byte] } := by
  unfold writeAll
  rw [List.foldl_cons, List.foldl_nil]
  unfold write
  rw [UInt16.sub_self, store_send h.closed]

/-- What is printed does not reach the UART. -/
theorem writeAll_print (hoverlap : ¬s.PortsOverlap) (hfit : s.RegistersFit) (file : UartFile)
    (byte : UInt8) :
    file.writeAll s.uartBase [(s.printerBase, byte), (s.printerBase + 2, 0x0D),
      (s.printerBase + 2, 0x08)] = file := by
  rcases s.printer_apart hoverlap hfit with ⟨hdata, hcontrol⟩
  unfold writeAll
  simp only [List.foldl_cons, List.foldl_nil, write_apart hfit hdata, write_apart hfit hcontrol]

end UartFile

/-- What is done to the serial port and to the printer. -/
inductive LineUse
  /-- The serial port is programmed again. -/
  | program
  /-- A byte is sent. -/
  | transmit (byte : UInt8)
  /-- A byte is looked for. -/
  | receive
  /-- A byte is printed. -/
  | print (byte : UInt8)
deriving DecidableEq

namespace LineUse

/-- Does it. -/
def perform (p : Printer) (u : Uart) : LineUse → Io Uart
  | program => u.init
  | transmit byte => do
      u.transmit byte
      pure u
  | receive => do
      let _ ← u.tryReceive
      pure u
  | print byte => do
      p.transmit byte
      pure u

/-- Does one after the other. -/
def performAll (p : Printer) : List LineUse → Uart → Io Uart
  | [], u => pure u
  | use :: rest, u => do
      let u ← use.perform p u
      performAll p rest u

/-- What it sends. -/
def sends : LineUse → List UInt8
  | transmit byte => [byte]
  | _ => []

end LineUse

/-- The events of a use keep the programming, put into the transmit register what the use
    sends, and are no writes to the UART if it prints. -/
structure Serves (s : Settings) (use : LineUse) (events : List Event) : Prop where
  kept : ∀ file, UartFile.Programmed s file →
    UartFile.Programmed s (file.after s.uartBase events)
  sent : ∀ file, UartFile.Programmed s file →
    (file.after s.uartBase events).sent = file.sent ++ use.sends
  apart : ∀ byte, use = .print byte → ∀ w ∈ events.filterMap Event.portWrite?,
    ¬s.UartAnswers w.1

/-- A UART is driven as some settings say. -/
structure Uart.DrivenBy (s : Settings) (u : Uart) : Prop where
  base : u.base = s.uartBase
  divisor : s.divisor = .ok u.divisor

variable {s : Settings}

/-- Programming does that on any hardware, over any registers, and leaves the UART driven as
    before. -/
theorem Uart.init_programs {u : Uart} (hu : u.DrivenBy s) (hvalid : s.validate = .ok ())
    (m : σ) :
    u.init.Traces bus fuel m fun u' events _ => u'.DrivenBy s ∧ ∀ file : UartFile,
      UartFile.Programmed s (file.after s.uartBase events) ∧
        (file.after s.uartBase events).sent = file.sent := by
  refine traces_mono (u.init_traffic m) ?_
  rintro _ events _ ⟨⟨present, rfl⟩, htraffic⟩
  refine ⟨⟨hu.base, hu.divisor⟩, fun file => ?_⟩
  rcases s.of_validate hvalid with ⟨d, hdivisor, hexact, _⟩
  cases hu.divisor.symm.trans hdivisor
  rw [UartFile.after_of_traffic htraffic, ← hu.base]
  exact UartFile.programmed_after_init hexact file

namespace LineUse

/-- What each use does, whatever the devices answer. -/
theorem perform_serves (hvalid : s.validate = .ok ()) (hfit : s.RegistersFit) {u : Uart}
    (hu : u.DrivenBy s) (use : LineUse) (m : σ) :
    (use.perform (Printer.ofSettings s) u).Traces bus fuel m fun u' events _ =>
      u'.DrivenBy s ∧ Serves s use events := by
  cases use with
  | program =>
      refine traces_mono (Uart.init_programs hu hvalid m) fun u' events _ ⟨hu', hfile⟩ => ?_
      refine ⟨hu', fun file _ => (hfile file).1, fun file _ => ?_, nofun⟩
      rw [(hfile file).2]
      exact (List.append_nil _).symm
  | transmit byte =>
      refine traces_bind (traces_mono (u.transmit_traffic byte m) fun _ events _ htraffic => ?_)
      refine traces_pure ⟨hu, ?_⟩
      rw [hu.base] at htraffic
      rw [List.append_nil]
      have hfile : ∀ file, UartFile.Programmed s file → file.after s.uartBase events =
          { file with sent := file.sent ++ [byte] } := fun file h => by
        rw [UartFile.after_of_traffic htraffic, h.send]
      refine ⟨fun file h => ?_, fun file h => ?_, nofun⟩
      · rw [hfile file h]
        exact ⟨h.exact, h.closed, h.eightBits, h.onReceive⟩
      · rw [hfile file h]
        rfl
  | receive =>
      refine traces_bind (traces_mono (u.tryReceive_traffic m) fun _ events _ htraffic => ?_)
      refine traces_pure ⟨hu, ?_⟩
      rw [List.append_nil]
      have hfile : ∀ file : UartFile, file.after s.uartBase events = file := fun file =>
        UartFile.after_of_traffic htraffic file
      refine ⟨fun file h => (hfile file).symm ▸ h, fun file _ => ?_, nofun⟩
      rw [hfile file]
      exact (List.append_nil _).symm
  | print byte =>
      -- Settings that pass the check keep the two devices apart, so what is printed is not for
      -- the UART.
      rcases s.of_validate hvalid with ⟨_, _, _, hoverlap⟩
      refine traces_bind (traces_mono ((Printer.ofSettings s).transmit_traffic byte m)
        fun _ events _ htraffic => ?_)
      refine traces_pure ⟨hu, ?_⟩
      rw [List.append_nil]
      have hfile : ∀ file : UartFile, file.after s.uartBase events = file := fun file =>
        (UartFile.after_of_traffic htraffic file).trans
          (UartFile.writeAll_print hoverlap hfit file byte)
      refine ⟨fun file h => (hfile file).symm ▸ h, fun file _ => ?_, fun _ _ w hw => ?_⟩
      · rw [hfile file]
        exact (List.append_nil _).symm
      · rcases s.printer_apart hoverlap hfit with ⟨hdata, hcontrol⟩
        rw [htraffic.writes_eq] at hw
        simp only [List.mem_cons, List.not_mem_nil, or_false] at hw
        rcases hw with rfl | rfl | rfl
        · exact hdata
        · exact hcontrol
        · exact hcontrol

/-- The events of any uses come in parts, one for each: the first so many uses alone have
    the first so many parts. -/
theorem performAll_serves (bus : Bus σ) (fuel : Nat) (hvalid : s.validate = .ok ())
    (hfit : s.RegistersFit) (uses : List LineUse) {u : Uart} (hu : u.DrivenBy s) (m : σ) :
    ∃ parts, List.Forall₂ (Serves s) uses parts ∧ ∀ k, ∃ u' m',
      bus.trace fuel (performAll (Printer.ofSettings s) (uses.take k) u) m =
        .ok (u', (parts.take k).flatten, m') := by
  induction uses generalizing u m with
  | nil => exact ⟨[], .nil, fun k => ⟨u, m, by rw [List.take_nil, List.take_nil]; rfl⟩⟩
  | cons use rest ih =>
      rcases (perform_serves hvalid hfit hu use m).trace with ⟨u₁, part, m₁, hfirst, hu₁, hserves⟩
      rcases ih hu₁ m₁ with ⟨parts, hparts, hruns⟩
      refine ⟨part :: parts, .cons hserves hparts, fun k => ?_⟩
      cases k with
      | zero => exact ⟨u, m, rfl⟩
      | succ k =>
          rcases hruns k with ⟨u', m', hrest⟩
          refine ⟨u', m', ?_⟩
          -- The first use runs by itself, and the next `k` from where it ends.
          rw [List.take_succ_cons, List.take_succ_cons, performAll, bus.trace_bind]
          exact bind_eq_ok.2 ⟨(u₁, part, m₁), hfirst, bind_eq_ok.2 ⟨_, hrest, rfl⟩⟩

/-- What uses one after the other do to the registers, up to any moment between two of
    them. -/
theorem serves_take {uses : List LineUse} {parts : List (List Event)}
    (h : List.Forall₂ (Serves s) uses parts) (k : Nat) {file : UartFile}
    (hfile : file.Programmed s) :
    (file.after s.uartBase (parts.take k).flatten).Programmed s ∧
      (file.after s.uartBase (parts.take k).flatten).sent =
        file.sent ++ (uses.take k).flatMap sends := by
  induction h generalizing k file with
  | nil =>
      rw [List.take_nil, List.take_nil]
      exact ⟨hfile, (List.append_nil _).symm⟩
  | cons hfirst _ ih =>
      cases k with
      | zero => exact ⟨hfile, (List.append_nil _).symm⟩
      | succ k =>
          rw [List.take_succ_cons, List.take_succ_cons, List.flatten_cons, List.flatMap_cons,
            UartFile.after_append]
          rcases ih k (hfirst.kept file hfile) with ⟨hkept, hsent⟩
          refine ⟨hkept, ?_⟩
          rw [hsent, hfirst.sent file hfile, List.append_assoc]

end LineUse

/-- For settings that pass the check, programming the serial port once and then using it and
    the printer in any way ends, whatever the devices answer. The events come in parts, first
    those of programming and then one part for each use: programming and the first `k` uses
    alone have the first part and the next `k`. No write of a print's part goes to a port of
    the UART. And whatever the registers held before, at every moment between two uses the
    divisor is exact, its latch is closed, words have eight bits and the receive interrupt
    alone is on, and the bytes sent are those of the uses so far, in order. -/
theorem Uart.stays_programmed {s : Settings} (hvalid : s.validate = .ok ())
    (hfit : s.RegistersFit) :
    ∃ u, ofSettings s = .ok u ∧ ∀ {σ : Type} (bus : Bus σ) (m : σ) (fuel : Nat)
      (uses : List LineUse), ∃ first parts,
      List.Forall₂ (fun use part => ∀ byte, use = .print byte →
        ∀ w ∈ part.filterMap Event.portWrite?, ¬s.UartAnswers w.1) uses parts ∧
      ∀ k, ∃ u' m',
        bus.trace fuel (u.init >>= LineUse.performAll (Printer.ofSettings s) (uses.take k)) m =
          .ok (u', first ++ (parts.take k).flatten, m') ∧
        ∀ file : UartFile,
          (file.after s.uartBase (first ++ (parts.take k).flatten)).Programmed s ∧
          (file.after s.uartBase (first ++ (parts.take k).flatten)).sent =
            file.sent ++ (uses.take k).flatMap LineUse.sends := by
  rcases s.of_validate hvalid with ⟨d, hdivisor, _⟩
  have hofSettings : ofSettings s = .ok ⟨s.uartBase, d, s.spinLimit, false⟩ := by
    unfold ofSettings
    rw [hdivisor]
  have hdriven : DrivenBy s ⟨s.uartBase, d, s.spinLimit, false⟩ := ⟨rfl, hdivisor⟩
  refine ⟨_, hofSettings, fun bus m fuel uses => ?_⟩
  rcases (init_programs hdriven hvalid m).trace with ⟨u₁, first, m₁, hinit, hu₁, hfirst⟩
  rcases LineUse.performAll_serves bus fuel hvalid hfit uses hu₁ m₁ with ⟨parts, hparts, hruns⟩
  refine ⟨first, parts, hparts.imp fun _ _ h => h.apart, fun k => ?_⟩
  rcases hruns k with ⟨u', m', hrest⟩
  -- The run up to that moment, and what its events do to the registers.
  refine ⟨u', m', ?_, fun file => ?_⟩
  · rw [bus.trace_bind]
    exact bind_eq_ok.2 ⟨(u₁, first, m₁), hinit, bind_eq_ok.2 ⟨_, hrest, rfl⟩⟩
  · rcases hfirst file with ⟨hprogrammed, hsent⟩
    rw [UartFile.after_append, ← hsent]
    exact LineUse.serves_take hparts k hprogrammed

/-- The slowest line, with the printer right below the serial port. -/
def Settings.slowAndNear : Settings := { uartBase := 0x3F8, printerBase := 0x3F5, baud := 2 }

/-- Two bytes sent with devices that always read as all ones, one before the port is
    programmed again and one after, over registers whose latch was left open. What is printed
    in between are three writes right below the serial port. -/
theorem Uart.stays_programmed_slow_and_near :
    Settings.slowAndNear.validate = .ok () ∧ Settings.slowAndNear.RegistersFit ∧
    ∃ u before printed later, ofSettings Settings.slowAndNear = .ok u ∧
      (∃ u' m', (Console.scriptedReads fun _ => 0xFF).trace 0
        (u.init >>= LineUse.performAll (Printer.ofSettings Settings.slowAndNear)
          [.transmit 0x41]) (Memory.empty, 0) = .ok (u', before, m')) ∧
      (∃ u' m', (Console.scriptedReads fun _ => 0xFF).trace 0
        (u.init >>= LineUse.performAll (Printer.ofSettings Settings.slowAndNear)
          [.transmit 0x41, .print 0x80]) (Memory.empty, 0) = .ok (u', before ++ printed, m')) ∧
      printed.filterMap Event.portWrite? = [(0x3F5, 0x80), (0x3F7, 0x0D), (0x3F7, 0x08)] ∧
      (∀ w ∈ printed.filterMap Event.portWrite?, ¬Settings.slowAndNear.UartAnswers w.1) ∧
      (∃ u' m', (Console.scriptedReads fun _ => 0xFF).trace 0
        (u.init >>= LineUse.performAll (Printer.ofSettings Settings.slowAndNear)
          [.transmit 0x41, .print 0x80, .program, .receive, .transmit 0x42]) (Memory.empty, 0) =
        .ok (u', before ++ printed ++ later, m')) ∧
      (UartFile.after 0x3F8 ⟨0, 0, 0x80, 0, []⟩ (before ++ printed ++ later)).Programmed
        Settings.slowAndNear ∧
      (UartFile.after 0x3F8 ⟨0, 0, 0x80, 0, []⟩ (before ++ printed ++ later)).sent =
        [0x41, 0x42] := by
  have hvalid : Settings.slowAndNear.validate = .ok () := by decide
  have hfit : Settings.slowAndNear.RegistersFit := ⟨by decide, by decide⟩
  rcases stays_programmed hvalid hfit with ⟨u, hu, hruns⟩
  rcases hruns (Console.scriptedReads fun _ => 0xFF) (Memory.empty, 0) 0
    [.transmit 0x41, .print 0x80, .program, .receive, .transmit 0x42] with
    ⟨first, parts, hparts, hfile⟩
  have hsettings : ofSettings Settings.slowAndNear = .ok ⟨0x3F8, 57600, 12800, false⟩ := by decide
  cases hu.symm.trans hsettings
  -- There are as many parts as uses.
  rcases hparts with _ | ⟨_, _ | ⟨hprint, hlater⟩⟩
  rename_i part _ printed later
  rcases hfile 1 with ⟨u₁, m₁, hone, _⟩
  rcases hfile 2 with ⟨u₂, m₂, htwo, _⟩
  rcases hfile 5 with ⟨u', m', hall, hregisters⟩
  have htake : later.take 3 = later := List.take_of_length_le (Nat.le_of_eq hlater.length_eq.symm)
  simp only [List.take_succ_cons, List.take_zero, htake, List.flatten_cons, List.flatten_nil,
    List.append_nil, ← List.append_assoc] at hone htwo hall hregisters
  have hwrote : ((Console.scriptedReads fun _ => 0xFF).trace 0
      (init ⟨0x3F8, 57600, 12800, false⟩ >>=
        LineUse.performAll (Printer.ofSettings Settings.slowAndNear)
          [.transmit 0x41]) (Memory.empty, 0)).toOption.map
        (fun v => v.2.1.filterMap Event.portWrite?) =
      some (programWrites ⟨0x3F8, 57600, 12800, false⟩ ++ [(0x3F8, 0x41)]) := by
    decide +kernel
  have hprinted : ((Console.scriptedReads fun _ => 0xFF).trace 0
      (init ⟨0x3F8, 57600, 12800, false⟩ >>=
        LineUse.performAll (Printer.ofSettings Settings.slowAndNear)
          [.transmit 0x41, .print 0x80]) (Memory.empty, 0)).toOption.map
        (fun v => v.2.1.filterMap Event.portWrite?) =
      some (programWrites ⟨0x3F8, 57600, 12800, false⟩ ++ [(0x3F8, 0x41)] ++
        [(0x3F5, 0x80), (0x3F7, 0x0D), (0x3F7, 0x08)]) := by
    decide +kernel
  rw [hone] at hwrote
  rw [htwo] at hprinted
  -- What the longer run has written and the shorter one has not is what was printed.
  have hbefore := Option.some.inj hwrote
  have htogether := Option.some.inj hprinted
  simp only [List.filterMap_append] at hbefore htogether
  rw [hbefore, List.append_cancel_left_eq] at htogether
  exact ⟨hvalid, hfit, _, first ++ part, printed, later.flatten, hsettings, ⟨u₁, m₁, hone⟩,
    ⟨u₂, m₂, htwo⟩, htogether, hprint _ rfl, ⟨u', m', hall⟩, hregisters _⟩

end KernelConsole
