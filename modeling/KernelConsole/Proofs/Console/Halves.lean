import KernelConsole.Proofs.Console.Draining
import KernelConsole.Proofs.Console.FanOut
import KernelConsole.Proofs.Console.Startup

/-!
# Input and Output Do Not Meet

A console that reads and writes on a bench does both as if it did only one of them.
Reading takes from the input devices and the queue; writing goes to the output devices
and the screen. Both ask the same status register of the serial port, and both are
recorded by the same bench, but neither leaves anything that the other can see.

So a sequence of commands can be taken apart. The input commands alone return what they
return in the whole, and leave the same behind in the devices and the queue; the output
commands alone write what they write in the whole.

## Main definitions

* `Console.Emission`, `Console.emit`: What an output command does.
* `Console.Split`: A run at some point, and its two halves there.
* `Console.inputAnswers`: The answers of the input commands.

## Theorems

* `Bench.alike_respond`: Benches with the same output devices only differ in what
  registers read as.
* `Console.emit_returns`, `Console.emit_inlet`, `Console.emit_mirrors`: An output
  command.
* `Console.Split.input`, `Console.Split.output`: A command of either side.
* `Console.halves_commute`: Any sequence of commands, and its two halves.
-/

namespace KernelConsole

open Prog

namespace Bench

/-- A cell is no input device. -/
theorem inlet_writeCell (b : Bench) (address : Nat) (cell : UInt16) :
    (b.writeCell address cell).inlet = b.inlet := by
  unfold writeCell
  split_ifs <;> rfl

/-- The access takes nothing from the input devices. -/
def Spares (a : Access) : Prop := ∀ b : Bench, (respond a b).2.inlet = b.inlet

theorem spares_readReg {r : Register} (huart : r.port ≠ uartPort)
    (hkeyboard : r.port ≠ keyboardDataPort) : Spares (.readReg r) :=
  fun b => b.inlet_readPort huart hkeyboard

theorem spares_writeReg (r : Register) (value : UInt8) : Spares (.writeReg r value) :=
  fun b => b.inlet_writePort r.port value

theorem spares_readCell (address : Nat) : Spares (.readCell address) := fun _ => rfl

theorem spares_writeCell (address : Nat) (cell : UInt16) : Spares (.writeCell address cell) :=
  fun b => b.inlet_writeCell address cell

theorem inlet_of_only {α : Type} {p : Io α} (hp : p.Only Spares) {fuel : Nat} {b e : Bench}
    (he : e.inlet = b.inlet) :
    p.Ensures respond.handler fuel e fun _ e' => e'.inlet = b.inlet := by
  refine Only.ensures (K := fun e : Bench => e.inlet = b.inlet) ?_ hp he
  intro a hspares e he v e' hreply
  have hanswer : respond a e = (v, e') := Except.ok.inj hreply
  -- The bench answers every access, so the state after it is the one of the answer.
  have hkept := hspares e
  rw [hanswer] at hkept
  exact hkept.trans he

/-- What a write to a port does to the output devices hangs on those alone. -/
theorem outlet_writePort_eq (b : Bench) (port : UInt16) (value : UInt8) :
    (b.writePort port value).outlet = { b.outlet with
      crtcs :=
        if port = colorCrtcPort ∨ port = monoCrtcPort then b.outlet.crtcs.select port value
        else if port = colorCrtcPort + 1 ∨ port = monoCrtcPort + 1 then
          b.outlet.crtcs.writeSelected (port - 1) value
        else b.outlet.crtcs
      writes := b.outlet.writes ++ [(port, value)].filter fun w => isOutputPort w.1 } := by
  have hwrites := b.outputWrites_writePort port value
  unfold outlet
  rw [hwrites]
  unfold writePort
  split_ifs <;> rfl

theorem outlet_writeCell_eq (b : Bench) (address : Nat) (cell : UInt16) :
    (b.writeCell address cell).outlet =
      if inColorBuffer address && !b.outlet.colorPresent then b.outlet
      else { b.outlet with memory := b.outlet.memory.write address cell } := by
  unfold writeCell
  change (if (inColorBuffer address && !b.outlet.colorPresent) = true then _ else _ : Bench).outlet
    = _
  split_ifs <;> rfl

theorem readCell_eq (b : Bench) (address : Nat) :
    b.readCell address =
      if inColorBuffer address && !b.outlet.colorPresent then 0xFFFF
      else b.outlet.memory.read address := rfl

/-- Two benches with the same output devices only differ in what registers read as. -/
theorem alike_respond : respond.AlikeButReads respond fun b e => e.outlet = b.outlet where
  left r b e h := h.trans (b.outlet_readPort r.port).symm
  right r b e h := (e.outlet_readPort r.port).trans h
  both a hother b e h := by
    cases a with
    | readReg r => cases hother
    | writeReg r value =>
        refine ⟨rfl, ?_⟩
        rw [respond, respond, outlet_writePort_eq, outlet_writePort_eq, h]
    | readCell address =>
        refine ⟨?_, h⟩
        rw [respond, respond, readCell_eq, readCell_eq, h]
    | writeCell address cell =>
        refine ⟨rfl, ?_⟩
        rw [respond, respond, outlet_writeCell_eq, outlet_writeCell_eq, h]

end Bench

namespace Console

/-- What an output command does: it writes bytes, blanks the screen, or chooses
    colours. -/
inductive Emission
  | bytes (bytes : List UInt8)
  | clear
  | colors (foreground background : Color)

/-- Does it. -/
def emit (c : Console) : Emission → Io Console
  | .bytes bytes => c.writeBytes bytes
  | .clear => c.clearScreen
  | .colors foreground background => pure (c.setColor foreground background)

/-- An output command is something to emit, and an answer that hangs on nothing. -/
theorem perform_emit {command : Command} (h : command.isOutput = true) : ∃ answer e,
    ∀ c : Console, c.perform command = (c.emit e).unreported >>= fun d => pure (answer, d) := by
  cases command with
  | output byte =>
      refine ⟨.nothing, .bytes [byte], fun c => ?_⟩
      have hone : c.writeBytes [byte] = c.output byte := bind_pure (c.output byte)
      rw [emit, hone]
      rfl
  | write text => exact ⟨.nothing, .bytes (utf8 text), fun c => rfl⟩
  | record r => exact ⟨.nothing, .bytes (utf8 r.line), fun c => rfl⟩
  | flush b =>
      refine ⟨.backlog ⟨b.pending.drain.2⟩, .bytes b.pending.contents, fun c => ?_⟩
      change ((b.flushInto c).unreported >>= fun v => pure (Answer.backlog v.1, v.2)) = _
      rw [b.flushInto_eq c, unreported, interpret_bind, LawfulMonad.bind_assoc]
      rfl
  | setColor foreground background => exact ⟨.nothing, .colors foreground background, fun c => rfl⟩
  | clearScreen => exact ⟨.nothing, .clear, fun c => rfl⟩
  | _ => cases h

section AnyHardware

variable {σ τ : Type} {bus : Bus σ} {bus' : Bus τ} {R : σ → τ → Prop} {fuel : Nat} {c d : Console}

/-- Whatever the hardware, an output command ends and changes the screen alone. -/
theorem emit_returns (h : c.screen.cursor.toNat < Screen.cells) (e : Emission) (m : σ) :
    (c.emit e).Returns bus.handler fuel m fun c' _ =>
      ∃ screen, c' = { c with screen } ∧ screen.cursor.toNat < Screen.cells := by
  cases e with
  | bytes bytes => exact writeBytes_after bytes h m
  | clear =>
      refine returns_bind (returns_mono (c.screen.clear_shown m).returns ?_)
      rintro _ m₁ ⟨_, rfl, _⟩
      exact returns_pure ⟨_, rfl, show (0 : Nat).toUInt16.toNat < Screen.cells by decide⟩
  | colors foreground background => exact returns_pure ⟨_, rfl, h⟩

/-- On two machines that differ in what registers read as, an output command does the same, up
    to what it waits for. -/
theorem emit_mirrors (halike : bus.AlikeButReads bus' R) (hcd : SameOutput c d) (e : Emission)
    {m : σ} {m' : τ} (hR : R m m') :
    (c.emit e).Mirrors bus.handler fuel m bus'.handler fuel (d.emit e) m'
      fun c' s d' t => (∃ screen, c' = { c with screen } ∧ d' = { d with screen }) ∧ R s t := by
  cases e with
  | bytes bytes => exact writeBytes_mirrors halike bytes hcd hR
  | clear =>
      have honly : c.screen.clear.Only (Access.isRegRead · = false) :=
        Screen.clear_only (fun _ _ => rfl) (fun _ _ => rfl) (fun _ _ => rfl) c.screen
      unfold emit clearScreen
      -- Both consoles have the same screen, and blanking it reads nothing.
      rw [← hcd.screen]
      refine mirrors_bind (mirrors_mono (Only.mirrors_alike halike honly hR) ?_)
      rintro screen m₁ _ m₁' ⟨rfl, h₁⟩
      exact mirrors_pure ⟨⟨screen, rfl, rfl⟩, h₁⟩
  | colors foreground background =>
      refine mirrors_pure ⟨⟨_, rfl, ?_⟩, hR⟩
      rw [hcd.screen]
      rfl

end AnyHardware

section Bench

variable {fuel : Nat} {c : Console} {b : Bench} {records : List Record}

/-- Writing a byte reads no register that an input device gives its bytes in. -/
theorem output_only_onBench {P : Access → Prop} (huart : c.uart.base = Bench.uartPort)
    (hprinter : c.printer.base = Bench.printerPort)
    (hread : ∀ r : Register, r.port ≠ Bench.uartPort → r.port ≠ Bench.keyboardDataPort →
      P (.readReg r))
    (hwrite : ∀ r value, P (.writeReg r value)) (hload : ∀ address, P (.readCell address))
    (hstore : ∀ address cell, P (.writeCell address cell)) (byte : UInt8) :
    (c.output byte).Only P := by
  have hdelay : P (.readReg .diagnostic) := hread .diagnostic (by decide) (by decide)
  have hline : (c.uart.reg .lineStatus).port = Bench.uartPort + 5 := congrArg (· + 5) huart
  have hstatus : (c.printer.reg .status).port = Bench.printerPort + 1 := congrArg (· + 1) hprinter
  refine Only.bind (Uart.transmit_only hdelay ?_ (hwrite _) byte) fun _ => ?_
  · exact hread _ (by rw [hline]; decide) (by rw [hline]; decide)
  refine Only.bind (Printer.transmit_only hdelay ?_ (hwrite _) (hwrite _) byte) fun _ => ?_
  · exact hread _ (by rw [hstatus]; decide) (by rw [hstatus]; decide)
  exact Only.bind (Screen.putChar_only trivial hload hstore (fun _ => hwrite _) (fun _ => hwrite _)
    _ byte) fun _ => Only.pure

/-- Writing a byte changes the screen alone. -/
theorem output_screen {σ : Type} {hw : Handler Hardware σ} {m : σ} (byte : UInt8) :
    (c.output byte).Ensures hw fuel m fun c' _ => ∃ screen, c' = { c with screen } :=
  ensures_bind fun _ _ _ => ensures_bind fun _ _ _ => ensures_bind fun screen _ _ =>
    ensures_pure ⟨screen, rfl⟩

/-- Writing a byte takes nothing from the input devices. -/
theorem output_inlet (huart : c.uart.base = Bench.uartPort)
    (hprinter : c.printer.base = Bench.printerPort) (byte : UInt8) {e : Bench}
    (he : e.inlet = b.inlet) :
    (c.output byte).Ensures Bench.respond.handler fuel e fun c' e' =>
      (∃ screen, c' = { c with screen }) ∧ e'.inlet = b.inlet := by
  have hspares : (c.output byte).Only Bench.Spares :=
    output_only_onBench huart hprinter (fun _ => Bench.spares_readReg) Bench.spares_writeReg
      Bench.spares_readCell Bench.spares_writeCell byte
  exact ensures_and (output_screen byte) (Bench.inlet_of_only hspares he)

theorem writeBytes_inlet (bytes : List UInt8) {c : Console} (huart : c.uart.base = Bench.uartPort)
    (hprinter : c.printer.base = Bench.printerPort) {e : Bench} (he : e.inlet = b.inlet) :
    (c.writeBytes bytes).Ensures Bench.respond.handler fuel e fun _ e' => e'.inlet = b.inlet := by
  induction bytes generalizing c e with
  | nil => exact ensures_pure he
  | cons byte rest ih =>
      refine ensures_bind (ensures_mono (output_inlet huart hprinter byte he) ?_)
      rintro _ e₁ ⟨⟨screen, rfl⟩, h₁⟩
      exact ih (c := { c with screen }) huart hprinter h₁

/-- An output command takes nothing from the input devices. -/
theorem emit_inlet (hc : c.OnBench b) (e : Emission) :
    (c.emit e).Ensures Bench.respond.handler fuel b fun _ b' => b'.inlet = b.inlet := by
  cases e with
  | bytes bytes => exact writeBytes_inlet bytes hc.uart hc.printer rfl
  -- Blanking the screen and moving the cursor are writes.
  | clear =>
      have hclear : c.screen.clear.Only Bench.Spares :=
        Screen.clear_only Bench.spares_writeCell (fun _ => Bench.spares_writeReg _)
          (fun _ => Bench.spares_writeReg _) c.screen
      refine ensures_bind (ensures_mono (Bench.inlet_of_only hclear rfl) fun _ b' hb' => ?_)
      exact ensures_pure hb'
  | colors foreground background => exact ensures_pure rfl

end Bench

/-- What the serial port gives is queued whatever is on the screen. -/
theorem receiveAll_screen (c : Console) (screen : Screen) (bytes : List UInt8) :
    ({ c with screen } : Console).receiveAll bytes = { c.receiveAll bytes with screen } := by
  induction bytes generalizing c with
  | nil => rfl
  | cons byte rest ih =>
      have hone : ({ c with screen } : Console).enqueue byte = { c.enqueue byte with screen } := by
        rw [enqueue_eq, enqueue_eq]
      exact (congrArg (receiveAll · rest) hone).trans (ih (c.enqueue byte))

theorem typeAll_screen (c : Console) (screen : Screen) (scancodes : List UInt8) :
    ({ c with screen } : Console).typeAll scancodes = { c.typeAll scancodes with screen } := by
  induction scancodes generalizing c with
  | nil => rfl
  | cons scancode rest ih =>
      have hone : ({ c with screen } : Console).typed scancode =
          { c.typed scancode with screen } := by
        unfold typed enqueueEvent
        cases (c.keyboard.decoder.feed scancode).1.byte? with
        | none => rfl
        | some byte => simp only [enqueue_eq]
      exact (congrArg (typeAll · rest) hone).trans (ih (c.typed scancode))

theorem listen_screen (c : Console) (screen : Screen) (i : Bench.Inlet) :
    ({ c with screen } : Console).listen i = { c.listen i with screen } := by
  unfold listen
  by_cases hpresent : c.uart.present = true
  · rw [if_pos hpresent, if_pos hpresent]
    exact c.receiveAll_screen screen i.received
  · rw [if_neg hpresent, if_neg hpresent]

/-- What an input command does has nothing to do with the screen. -/
theorem look_screen (c : Console) (screen : Screen) (i : Bench.Inlet) (command : Command) :
    ({ c with screen } : Console).look i command =
      (((c.look i command).1.1, { (c.look i command).1.2 with screen }), (c.look i command).2) := by
  cases command with
  | serialInterrupt => simp only [look, listen_screen]; rfl
  | keyboardInterrupt => simp only [look, typeAll_screen]
  | input => simp only [look, listen_screen, typeAll_screen]; rfl
  | _ => rfl

/-- A run on a bench at some point, and its two halves there: a run that has only done the
    input commands so far, and one that has only done the output commands. There is fuel
    for whatever waits. -/
structure Split (fuel : Nat) (c : Console) (b : Bench) (cᵢ : Console) (bᵢ : Bench)
    (cₒ : Console) (bₒ : Bench) : Prop where
  /-- The console drives the devices of the bench. -/
  bench : c.OnBench b
  /-- Its cursor is on the screen. -/
  cursor : c.screen.cursor.toNat < Screen.cells
  received : b.received.length < fuel
  scancodes : b.scancodes.length < fuel
  /-- The input half has the same console but for the screen. -/
  input : ∃ screen, cᵢ = { c with screen }
  /-- The same waits in its input devices. -/
  inlet : bᵢ.inlet = b.inlet
  /-- The output half has the same output devices, in the same state. -/
  output : SameOutput c cₒ
  /-- Its bench has the same output devices. -/
  outlet : bₒ.outlet = b.outlet

variable {fuel : Nat} {c cᵢ cₒ : Console} {b bᵢ bₒ : Bench}

/-- An input command, in the run and in its input half. The output half stays where it
    is. -/
theorem Split.input_step (h : Split fuel c b cᵢ bᵢ cₒ bₒ) (r rᵢ : List Record)
    {command : Command} (hinput : command.isInput = true) :
    (c.perform command).Returns Bench.respond.handler.keepingRecords fuel (b, r) fun v s =>
      (cᵢ.perform command).Returns Bench.respond.handler.keepingRecords fuel (bᵢ, rᵢ) fun vᵢ sᵢ =>
        vᵢ.1 = v.1 ∧ Split fuel v.2 s.1 vᵢ.2 sᵢ.1 cₒ bₒ := by
  obtain ⟨screen, rfl⟩ := h.input
  have hreceived : bᵢ.received = b.received := congrArg Bench.Inlet.received h.inlet
  have hscancodes : bᵢ.scancodes = b.scancodes := congrArg Bench.Inlet.scancodes h.inlet
  have hpresent : bᵢ.uartPresent = b.uartPresent := congrArg Bench.Inlet.uartPresent h.inlet
  have hbenchᵢ : ({ c with screen } : Console).OnBench bᵢ :=
    h.bench.congr rfl rfl rfl rfl hpresent
  refine returns_mono (perform_look h.bench h.received h.scancodes hinput) ?_
  rintro ⟨answer, c'⟩ ⟨b', r'⟩ ⟨hlook, houtlet⟩
  refine returns_mono (perform_look hbenchᵢ (hreceived ▸ h.received) (hscancodes ▸ h.scancodes)
    hinput) ?_
  rintro ⟨answerᵢ, cᵢ'⟩ ⟨bᵢ', rᵢ'⟩ ⟨hlookᵢ, _⟩
  rw [h.inlet, look_screen, ← hlook] at hlookᵢ
  simp only [Prod.mk.injEq] at hlookᵢ
  obtain ⟨⟨rfl, rfl⟩, hinlet⟩ := hlookᵢ
  -- The console has changed in its decoder and its queue, which the output half does not
  -- look at, and nothing more waits than before.
  obtain ⟨decoder, queue, hshape⟩ := c.look_eq b.inlet command
  obtain ⟨hthere, hless, hfewer⟩ := c.look_inlet b.inlet command
  rw [← hlook] at hshape hthere hless hfewer
  subst hshape
  refine ⟨rfl, ?_, h.cursor, ?_, ?_, ⟨screen, rfl⟩, hinlet, ?_, h.outlet.trans houtlet.symm⟩
  · exact h.bench.congr rfl rfl rfl rfl hthere
  · exact Nat.lt_of_le_of_lt hless h.received
  · exact Nat.lt_of_le_of_lt hfewer h.scancodes
  · exact ⟨h.output.uart, h.output.printer, h.output.screen⟩

/-- An output command, in the run and in its output half. The input half stays where it
    is. -/
theorem Split.output_step (h : Split fuel c b cᵢ bᵢ cₒ bₒ) (r rₒ : List Record)
    {command : Command} (houtput : command.isOutput = true) :
    (c.perform command).Returns Bench.respond.handler.keepingRecords fuel (b, r) fun v s =>
      (cₒ.perform command).Returns Bench.respond.handler.keepingRecords fuel (bₒ, rₒ) fun vₒ sₒ =>
        Split fuel v.2 s.1 cᵢ bᵢ vₒ.2 sₒ.1 := by
  obtain ⟨screenᵢ, rfl⟩ := h.input
  obtain ⟨answer, e, hemit⟩ := perform_emit houtput
  obtain ⟨_, b', hrun, screen, rfl, hcursor⟩ :
      (c.emit e).Returns Bench.respond.handler fuel b _ := emit_returns h.cursor e b
  have hinlet : b'.inlet = b.inlet := emit_inlet h.bench e _ b' hrun
  obtain ⟨cₒ', bₒ', hrunₒ, ⟨screenₒ, hscreen, rfl⟩, houtlet⟩ :=
    emit_mirrors Bench.alike_respond h.output e h.outlet _ b' hrun
  obtain rfl : screen = screenₒ := congrArg Console.screen hscreen
  rw [hemit c, hemit cₒ]
  refine returns_bind (returns_unreported ⟨_, b', hrun, returns_pure ?_⟩)
  refine returns_bind (returns_unreported ⟨_, bₒ', hrunₒ, returns_pure ?_⟩)
  -- What waits is as before, so the input half still fits.
  have hreceived : b'.received = b.received := congrArg Bench.Inlet.received hinlet
  have hscancodes : b'.scancodes = b.scancodes := congrArg Bench.Inlet.scancodes hinlet
  have hpresent : b'.uartPresent = b.uartPresent := congrArg Bench.Inlet.uartPresent hinlet
  refine ⟨?_, hcursor, ?_, ?_, ⟨screenᵢ, rfl⟩, h.inlet.trans hinlet.symm, ?_, houtlet⟩
  · exact h.bench.congr rfl rfl rfl rfl hpresent
  · exact hreceived ▸ h.received
  · exact hscancodes ▸ h.scancodes
  · exact ⟨h.output.uart, h.output.printer, rfl⟩

/-- The answers of the input commands of a sequence. -/
def inputAnswers : List Command → List Answer → List Answer
  | command :: rest, answer :: answers =>
      if command.isInput then answer :: inputAnswers rest answers else inputAnswers rest answers
  | _, _ => []

theorem isOutput_of_isInput {command : Command} (h : command.isInput = true) :
    command.isOutput = false := by
  cases command <;> first | rfl | cases h

/-- Commands one after the other, in the run and in its halves. -/
theorem Split.performAll (h : Split fuel c b cᵢ bᵢ cₒ bₒ) (r rᵢ rₒ : List Record)
    {mix : List Command}
    (hmix : ∀ command ∈ mix, command.isInput = true ∨ command.isOutput = true) :
    (c.performAll mix).Returns Bench.respond.handler.keepingRecords fuel (b, r) fun v s =>
      (cᵢ.performAll (mix.filter Command.isInput)).Returns Bench.respond.handler.keepingRecords fuel
          (bᵢ, rᵢ) fun vᵢ sᵢ =>
        (cₒ.performAll (mix.filter Command.isOutput)).Returns Bench.respond.handler.keepingRecords
            fuel (bₒ, rₒ) fun vₒ sₒ =>
          vᵢ.1 = inputAnswers mix v.1 ∧ Split fuel v.2 s.1 vᵢ.2 sᵢ.1 vₒ.2 sₒ.1 := by
  induction mix generalizing c b r cᵢ bᵢ rᵢ cₒ bₒ rₒ with
  | nil => exact returns_pure (returns_pure (returns_pure ⟨rfl, h⟩))
  | cons command rest ih =>
      have hrest : ∀ command ∈ rest, command.isInput = true ∨ command.isOutput = true :=
        fun d hd => hmix d (List.mem_cons_of_mem _ hd)
      rcases hmix command List.mem_cons_self with hinput | houtput
      · -- The input half does the command too, and the output half skips it.
        have hskip : ¬command.isOutput = true := Bool.eq_false_iff.1 (isOutput_of_isInput hinput)
        rw [List.filter_cons_of_pos hinput, List.filter_cons_of_neg hskip]
        refine performAll_cons (returns_mono (h.input_step r rᵢ hinput) ?_)
        rintro v s ⟨vᵢ, sᵢ, hrunᵢ, hanswer, hsplit⟩
        refine returns_mono (ih hsplit s.2 sᵢ.2 rₒ hrest) fun w s' hw => ?_
        refine performAll_cons ⟨vᵢ, sᵢ, hrunᵢ, returns_mono hw fun wᵢ sᵢ' hₒ => ?_⟩
        refine returns_mono hₒ fun vₒ sₒ ⟨hanswers, hsplit'⟩ => ⟨?_, hsplit'⟩
        rw [inputAnswers, if_pos hinput, hanswer, hanswers]
      · have hskip : ¬command.isInput = true := fun hinput =>
          absurd houtput (Bool.eq_false_iff.1 (isOutput_of_isInput hinput))
        rw [List.filter_cons_of_neg hskip, List.filter_cons_of_pos houtput]
        refine performAll_cons (returns_mono (h.output_step r rₒ houtput) ?_)
        rintro v s ⟨vₒ, sₒ, hrunₒ, hsplit⟩
        refine returns_mono (ih hsplit s.2 rᵢ sₒ.2 hrest) fun w s' hw => ?_
        refine returns_mono hw fun vᵢ sᵢ hₒ => ?_
        refine performAll_cons ⟨vₒ, sₒ, hrunₒ, returns_mono hₒ fun wₒ sₒ' ⟨hanswers, hsplit'⟩ => ?_⟩
        refine ⟨?_, hsplit'⟩
        rw [inputAnswers, if_neg hskip, hanswers]

/-- On a bench, input commands and output commands in any order return, and so do the
    input commands alone and the output commands alone. The input commands return what
    they return alone, and leave the same behind in the queue, the decoder and the
    devices. The output commands leave the same screen, the same memory and display
    controllers, and have written the same to the serial port, the printer and the
    display controllers. -/
theorem halves_commute {c : Console} {b : Bench} (hc : c.OnBench b)
    (hcursor : c.screen.cursor.toNat < Screen.cells) {fuel : Nat}
    (hreceived : b.received.length < fuel) (hscancodes : b.scancodes.length < fuel)
    (r : List Record) {mix : List Command}
    (hmix : ∀ command ∈ mix, command.isInput = true ∨ command.isOutput = true) :
    ∃ answers c' b' r' cᵢ bᵢ rᵢ answersₒ cₒ bₒ rₒ,
      (c.performAll mix).run Bench.respond.handler.keepingRecords fuel (b, r) =
        .ok ((answers, c'), b', r') ∧
      (c.performAll (mix.filter Command.isInput)).run Bench.respond.handler.keepingRecords fuel
        (b, r) = .ok ((inputAnswers mix answers, cᵢ), bᵢ, rᵢ) ∧
      (c.performAll (mix.filter Command.isOutput)).run Bench.respond.handler.keepingRecords fuel
        (b, r) = .ok ((answersₒ, cₒ), bₒ, rₒ) ∧
      (c'.queue = cᵢ.queue ∧ c'.keyboard = cᵢ.keyboard ∧ b'.received = bᵢ.received ∧
        b'.scancodes = bᵢ.scancodes) ∧
      c'.screen = cₒ.screen ∧ b'.memory = bₒ.memory ∧ b'.crtcs = bₒ.crtcs ∧
        b'.outputWrites = bₒ.outputWrites := by
  -- At the start both halves are the run itself.
  have hstart : Split fuel c b c b c b :=
    ⟨hc, hcursor, hreceived, hscancodes, ⟨c.screen, rfl⟩, rfl, SameOutput.refl c, rfl⟩
  obtain ⟨⟨answers, c'⟩, ⟨b', r'⟩, hrun, ⟨_, cᵢ⟩, ⟨bᵢ, rᵢ⟩, hrunᵢ, ⟨answersₒ, cₒ⟩, ⟨bₒ, rₒ⟩, hrunₒ,
    rfl, hsplit⟩ := hstart.performAll r r r hmix
  obtain ⟨screen, rfl⟩ := hsplit.input
  refine ⟨answers, c', b', r', _, bᵢ, rᵢ, answersₒ, cₒ, bₒ, rₒ, hrun, hrunᵢ, hrunₒ, ?_, ?_⟩
  · exact ⟨rfl, rfl, (congrArg Bench.Inlet.received hsplit.inlet).symm,
      (congrArg Bench.Inlet.scancodes hsplit.inlet).symm⟩
  · exact ⟨hsplit.output.screen, (congrArg Bench.Outlet.memory hsplit.outlet).symm,
      (congrArg Bench.Outlet.crtcs hsplit.outlet).symm,
      (congrArg Bench.Outlet.writes hsplit.outlet).symm⟩

/-- A bench whose serial port holds an old byte and a letter, with a key pressed and
    released. -/
def letterAndKey : Bench := { received := [0x00, 0x61], scancodes := [0x30, 0xB0] }

/-- Reading and writing in turn, after a console for the default settings has been brought
    up. -/
def inTurn : List Command :=
  [.output 0x41, .input, .write "ok", .serialInterrupt, .clearScreen, .input]

theorem halves_commute_in_turn : ∃ new c b r,
    ofSettings {} = .ok new ∧
    new.init.run Bench.respond.handler.keepingRecords 4 (letterAndKey, []) = .ok (c, b, r) ∧
    b.received = [0x61] ∧ (∀ command ∈ inTurn, command.isInput = true ∨ command.isOutput = true) ∧
    ∃ answers c' b' r' cᵢ bᵢ rᵢ answersₒ cₒ bₒ rₒ,
      (c.performAll inTurn).run Bench.respond.handler.keepingRecords 4 (b, r) =
        .ok ((answers, c'), b', r') ∧
      (c.performAll [.input, .serialInterrupt, .input]).run Bench.respond.handler.keepingRecords 4
        (b, r) = .ok ((inputAnswers inTurn answers, cᵢ), bᵢ, rᵢ) ∧
      (c.performAll [.output 0x41, .write "ok", .clearScreen]).run
        Bench.respond.handler.keepingRecords 4 (b, r) = .ok ((answersₒ, cₒ), bₒ, rₒ) ∧
      (c'.queue = cᵢ.queue ∧ c'.keyboard = cᵢ.keyboard ∧ b'.received = bᵢ.received ∧
        b'.scancodes = bᵢ.scancodes) ∧
      c'.screen = cₒ.screen ∧ b'.memory = bₒ.memory ∧ b'.crtcs = bₒ.crtcs ∧
        b'.outputWrites = bₒ.outputWrites := by
  obtain ⟨new, hnew⟩ : ∃ new, (ofSettings {}).toOption = some new := ⟨_, rfl⟩
  have hends : ((ofSettings {}).toOption.bind fun new =>
      (new.init.run Bench.respond.handler.keepingRecords 4 (letterAndKey, [])).toOption.map
        fun v => (v.2.1.received, v.2.1.scancodes)) = some ([0x61], []) := by decide +kernel
  rw [hnew] at hends
  obtain ⟨⟨c, b, r⟩, hrun, hleft⟩ := Option.map_eq_some_iff.1 hends
  have hinit := eq_ok_of_toOption hrun
  have hnew' := eq_ok_of_toOption hnew
  obtain ⟨hreceived, hscancodes⟩ := Prod.mk.inj hleft
  obtain ⟨hbench, hcursor⟩ := init_onBench (ofSettings_onBench hnew' letterAndKey) letterAndKey []
    c (b, r) hinit
  have hmix : ∀ command ∈ inTurn, command.isInput = true ∨ command.isOutput = true := by decide
  refine ⟨new, c, b, r, hnew', hinit, hreceived, hmix, ?_⟩
  exact halves_commute hbench hcursor (by rw [hreceived]; decide) (by rw [hscancodes]; decide) r
    hmix

end Console

end KernelConsole
