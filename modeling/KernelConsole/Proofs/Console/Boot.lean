import KernelConsole.Proofs.Console.Intake
import KernelConsole.Proofs.Console.Printed
import KernelConsole.Proofs.Console.Portless

/-!
# Switching On

A console for the default settings, from the moment it is made. What was typed before it
is brought up is kept, because the keyboard is emptied into the queue. What the serial
port received before is kept too but for one byte, which is thrown away when the port is
programmed. Of all this the newest 512 bytes can be read, those of the keys first.

If there is no serial port, a line says so on every device, and nobody ever reads the
receive register.

## Main definitions

* `Console.fresh`: A console that was just made.
* `Console.missingText`: What is said if there is no serial port.
* `Bench.keptAtBoot`: The bytes that can be read after a console was brought up.
* `Bench.Unprinted`: A bench on which nothing was shown or printed since.
* `Console.Booted`: A console and its bench after the former was brought up.

## Theorems

* `Bench.Printed.after`: A line on a bench that something was done to before.
* `Console.init_boots`: Bringing a new console up.
* `Console.Booted.inputs_take_kept`: What can be read then.
* `Console.portless_of_init`: A missing port is not looked at when a console is brought up.
* `Console.boot_keeps_keystrokes`: What can be read then, and what a missing port leads to.
-/

namespace KernelConsole

open Prog

namespace Bench

variable {b b' : Bench}

/-- The bytes that can be read after a console was brought up on the bench. -/
def keptAtBoot (b : Bench) : List UInt8 :=
  (({} : Decoder).keyBytes b.scancodes ++
    (if b.uartPresent then b.received.tail.filter (· ≠ 0) else [])).rtake Ring.capacity

/-- Nothing was shown or printed on the bench since. The bytes `low` were put to the serial
    port. -/
structure Unprinted (b : Bench) (low : List UInt8) (b' : Bench) : Prop where
  memory : ∀ address, b'.memory.read address = b.memory.read address
  colorPresent : b'.colorPresent = b.colorPresent
  serial : b'.writesTo uartPort = b.writesTo uartPort ++ low
  printer : b'.writesTo printerPort = b.writesTo printerPort
  strobes : b'.writesTo (printerPort + 2) = b.writesTo (printerPort + 2)

theorem Unprinted.trans {e : Bench} {low more : List UInt8} (h : b.Unprinted low e)
    (h' : e.Unprinted more b') : b.Unprinted (low ++ more) b' where
  memory address := (h'.memory address).trans (h.memory address)
  colorPresent := h'.colorPresent.trans h.colorPresent
  serial := by rw [h'.serial, h.serial, List.append_assoc]
  printer := h'.printer.trans h.printer
  strobes := h'.strobes.trans h.strobes

/-- Nothing is printed by a look at the input devices. -/
theorem Looked.unprinted {ports : List UInt16} {i : Inlet} (h : b.Looked ports i b') :
    b.Unprinted [] b' where
  memory address := congrArg (fun o : Outlet => o.memory.read address) h.outlet
  colorPresent := congrArg Outlet.colorPresent h.outlet
  serial := (writesTo_of_outlet h.outlet (by decide)).trans (List.append_nil _).symm
  printer := writesTo_of_outlet h.outlet (by decide)
  strobes := writesTo_of_outlet h.outlet (by decide)

/-- A line on a bench on which nothing was shown or printed before. -/
theorem Printed.after {e : Bench} {low text : List UInt8} {start cursor : Nat}
    (h : e.Printed [] start text b' cursor) (hbefore : b.Unprinted low e) :
    b.Printed low start text b' cursor := by
  have hadapter : e.adapter = b.adapter := adapter_congr hbefore.colorPresent
  have hcells : e.cell b.adapter.buffer = b.cell b.adapter.buffer :=
    funext fun i => hbefore.memory (b.adapter.buffer + 2 * i)
  refine ⟨?_, ?_, ?_, fun i hi => ?_, h.cursor⟩
  · rw [h.serial, hbefore.serial, List.nil_append, List.append_assoc]
  · rw [h.printer, hbefore.printer]
  · rw [h.strobes, hbefore.strobes]
  · rw [← hadapter, h.cells i hi, hadapter, hcells]

end Bench

namespace Console

variable {fuel : Nat} {b : Bench}

/-- A console for the default settings that was just made. -/
def fresh : Console where
  uart := ⟨0x3F8, 12, 12800, false⟩
  printer := Printer.ofSettings {}
  screen := {}
  keyboard := Keyboard.ofSettings {}
  queue := Ring.empty

theorem ofSettings_default : ofSettings {} = .ok fresh := by rfl

/-- What is said if there is no serial port, without the end of the line. -/
def missingText : List UInt8 := utf8 "Serial port does not exist!"

theorem utf8_serialMissingText : utf8 serialMissingText = missingText ++ [0x0A] := by
  decide +kernel

theorem missingText_characters : ∀ ch ∈ missingText, 0x20 ≤ ch := by decide +kernel

/-- Nothing is printed when the screen is taken over. -/
theorem initScreen_bench (s : Screen) (records : List Record) :
    s.init.Returns Bench.respond.handler.keepingRecords fuel (b, records) fun s' t =>
      s' = s.adopted b ∧ b.Unprinted [] t.1 ∧ t.1.inlet = b.inlet := by
  obtain ⟨_, ⟨b', r'⟩, hrun, rfl, hundisturbed⟩ :
      s.init.Returns Bench.respond.handler.keepingRecords fuel (b, records) _ :=
    Screen.init_bench s b records
  have hfound : s.init.Observes Bench.respond fuel b _ := Screen.init_found s b
  obtain ⟨events, ⟨_, hevents⟩, hsaw⟩ := (hfound.bench records).of_run hrun
  have hwrites : ∀ {port}, Bench.OffScreen port → b'.writesTo port = b.writesTo port := fun hport =>
    Bench.writesTo_of_offScreen hsaw (fun e he => (hevents e he).2) hport
  refine ⟨_, (b', r'), hrun, rfl, ⟨hundisturbed.memory, hundisturbed.colorPresent, ?_, ?_, ?_⟩,
    hundisturbed.inlet⟩
  -- Only the controller of an adapter was told anything.
  · exact (hwrites (by decide)).trans (List.append_nil _).symm
  · exact hwrites (by decide)
  · exact hwrites (by decide)

/-- Programming the serial port puts the low half of the divisor to its first port. -/
theorem programmed_unprinted {e : Bench} (h : b.Wrote fresh.uart.programWrites e) :
    b.Unprinted [0x0C] e := by
  have hports : Bench.bytesTo Bench.uartPort fresh.uart.programWrites = [0x0C] ∧
      Bench.bytesTo Bench.printerPort fresh.uart.programWrites = [] ∧
      Bench.bytesTo (Bench.printerPort + 2) fresh.uart.programWrites = [] := by decide
  rcases hports with ⟨hserial, hprinter, hstrobes⟩
  refine ⟨fun address => congrArg (Memory.read · address) h.memory, h.colorPresent, ?_, ?_, ?_⟩
  · rw [Bench.writesTo_append h.writes, hserial]
  · rw [Bench.writesTo_append h.writes, hprinter, List.append_nil]
  · rw [Bench.writesTo_append h.writes, hstrobes, List.append_nil]

/-- What was typed is in the queue, the newest 512 bytes of it. -/
theorem typeAll_fresh (screen : Screen) (scancodes : List UInt8) : ∃ decoder queue,
    ({ fresh with screen } : Console).typeAll scancodes =
      { fresh with screen, keyboard := { fresh.keyboard with decoder }, queue } ∧
    queue.Bounded ∧
    queue.contents = (({} : Decoder).keyBytes scancodes).rtake Ring.capacity := by
  -- Nothing is unread when a console is made.
  rcases Ring.contents_pushAll Ring.wideEnough_word (Ring.bounded_empty (w := 64))
    (({} : Decoder).keyBytes scancodes) with ⟨hbounded, hcontents⟩
  rw [Ring.contents_empty, List.nil_append] at hcontents
  exact ⟨_, _, typeAll_pushes _ scancodes, hbounded, hcontents⟩

/-- A new console was brought up on the bench `b`, which is `b₁` now. -/
structure Booted (b : Bench) (c : Console) (b₁ : Bench) : Prop where
  present : c.uart.present = b.uartPresent
  bounded : c.queue.Bounded
  contents : c.queue.contents = (({} : Decoder).keyBytes b.scancodes).rtake Ring.capacity
  /-- The keyboard was emptied, and one byte was taken from the serial port. -/
  inlet : b₁.inlet = ⟨if b.uartPresent then b.received.tail else b.received, [], b.uartPresent⟩
  missing : b.uartPresent = false →
    b.Printed [0x0C] (({} : Screen).adopted b).cursor.toNat missingText b₁ c.screen.cursor.toNat

/-- A console that was just made is brought up on any bench. -/
theorem init_boots (hscancodes : b.scancodes.length < fuel) (records : List Record) :
    fresh.init.Returns Bench.respond.handler.keepingRecords fuel (b, records) fun c s =>
      Booted b c s.1 := by
  -- The screen is taken over first, and then the keyboard is emptied.
  refine returns_bind (returns_mono (initScreen_bench {} records) ?_)
  rintro _ ⟨b₁, r₁⟩ ⟨rfl, hunprinted₁, hinlet₁⟩
  have hscancodes₁ : b₁.scancodes = b.scancodes := congrArg Bench.Inlet.scancodes hinlet₁
  have hbench₁ : ({ fresh with screen := ({} : Screen).adopted b } : Console).OnBench b₁ :=
    (ofSettings_onBench ofSettings_default b).congr rfl rfl rfl rfl
      (congrArg Bench.Inlet.uartPresent hinlet₁)
  refine returns_bind (returns_mono (keyboardInterrupt_drains hbench₁ (hscancodes₁ ▸ hscancodes))
    ?_)
  rintro _ ⟨b₂, r₂⟩ ⟨rfl, hlooked₂⟩
  have hinlet₂ : b₂.inlet = { b.inlet with scancodes := [] } := by
    rw [hlooked₂.inlet, show b₁.inlet = b.inlet from hinlet₁]
  rcases typeAll_fresh (({} : Screen).adopted b) b₁.scancodes with
    ⟨decoder, queue, htyped, hbounded, hcontents⟩
  rw [htyped]
  rw [hscancodes₁] at hcontents
  -- The serial port is last, as all that follows depends on whether it is there.
  refine returns_bind (returns_unreported (returns_mono
    (Uart.init_bench (u := fresh.uart) rfl b₂) ?_))
  rintro _ b₃ ⟨rfl, e, hwrote, hlooked₃⟩
  have hpresent₂ : b₂.uartPresent = b.uartPresent := congrArg Bench.Inlet.uartPresent hinlet₂
  have hreceived₂ : b₂.received = b.received := congrArg Bench.Inlet.received hinlet₂
  have hinlet₃ : b₃.inlet =
      ⟨if b.uartPresent then b.received.tail else b.received, [], b.uartPresent⟩ := by
    rw [hlooked₃.inlet, hpresent₂, hreceived₂, hinlet₂]
    rfl
  -- Up to here half of the divisor is all that went to a port that bytes go out of.
  have hunprinted₃ : b.Unprinted [0x0C] b₃ :=
    ((hunprinted₁.trans hlooked₂.unprinted).trans (programmed_unprinted hwrote)).trans
      hlooked₃.unprinted
  by_cases hpresent : b.uartPresent = true
  · simp only [hpresent₂, if_pos hpresent]
    exact returns_pure ⟨rfl, hbounded, hcontents, hinlet₃,
      fun habsent => absurd (habsent.symm.trans hpresent) nofun⟩
  · simp only [hpresent₂, if_neg hpresent]
    -- Nobody is there, so a line says so.
    refine returns_bind ⟨(), _, rfl, ?_⟩
    change (writeBytes _ (utf8 serialMissingText)).unreported.Returns _ _ _ _
    rw [utf8_serialMissingText]
    have hadapter : b.adapter = b₃.adapter := (Bench.adapter_congr hunprinted₃.colorPresent).symm
    refine returns_mono (writeLine_prints ⟨rfl, rfl, rfl⟩ hadapter rfl
      (Screen.adopted_lt {} b) missingText_characters _) ?_
    rintro _ s ⟨⟨screen, rfl⟩, hinlet, hprinted⟩
    exact ⟨rfl, hbounded, hcontents, hinlet.trans hinlet₃, fun _ => hprinted.after hunprinted₃⟩

variable {c : Console} {b₁ : Bench}

/-- The first look after a console was brought up is left with what was kept. -/
theorem Booted.unreadAfter_eq (h : Booted b c b₁) : c.unreadAfter b₁.inlet = b.keptAtBoot := by
  have hintake : c.intake b₁.inlet =
      if b.uartPresent then b.received.tail.filter (· ≠ 0) else [] := by
    -- The keyboard has nothing more, and the serial port only if there is one.
    have hnone : c.keyboard.decoder.keyBytes [] = [] := rfl
    unfold intake
    rw [h.present, h.inlet]
    by_cases hthere : b.uartPresent = true
    · simp only [if_pos hthere, hnone, List.append_nil]
    · simp only [if_neg hthere, hnone, List.append_nil]
  unfold unreadAfter Bench.keptAtBoot
  rw [h.contents, hintake, Ring.rtake_append_rtake]

/-- What was kept is what is taken until there is none. No more waits than did before, so
    the fuel that is enough for that is enough here. -/
theorem Booted.inputs_take_kept (h : Booted b c b₁) (hbench : c.OnBench b₁)
    (hreceived : b.received.length < fuel) (records : List Record) :
    (c.performAll (List.replicate (b.keptAtBoot.length + 1) .input)).Returns
      Bench.respond.handler.keepingRecords fuel (b₁, records) fun v _ =>
        v.1 = b.keptAtBoot.map (fun byte => .byte (some byte)) ++ [.byte none] := by
  have hleft : b₁.received = if b.uartPresent then b.received.tail else b.received :=
    congrArg Bench.Inlet.received h.inlet
  have hnone : b₁.scancodes = [] := congrArg Bench.Inlet.scancodes h.inlet
  have hreceived₁ : b₁.received.length < fuel := by
    rw [hleft]
    split
    · rw [List.length_tail]
      omega
    · exact hreceived
  have hscancodes₁ : b₁.scancodes.length < fuel := by
    rw [hnone]
    exact Nat.zero_lt_of_lt hreceived
  rw [← h.unreadAfter_eq]
  exact inputs_take_all hbench h.bounded hreceived₁ hscancodes₁ records

/-- Where there is no serial port, a console that is brought up does not read the receive
    register. -/
theorem portless_of_init {new : Console} (hnew : new.OnBench b) (habsent : b.uartPresent = false)
    {records records₁ : List Record}
    (hrun : new.init.run Bench.respond.handler.keepingRecords fuel (b, records) =
      .ok (c, b₁, records₁)) : c.Portless (b.readsOf Bench.uartPort) b₁ := by
  have hpaths : new.init.Ensures Bench.respond.handler.observed fuel ((b, []), records) _ :=
    init_path new _
  rcases path_of_run (ensures_mono hpaths fun _ _ ⟨as, hpath, _⟩ => ⟨as, hpath⟩) hrun with
    ⟨_, _, hpath⟩
  exact hpath.portless ⟨hnew, habsent, rfl⟩

/-- On every bench, whatever waits in its devices, is on its screen and shows as its cursor,
    a console for the default settings can be made and brought up. It has a serial port
    exactly if there is one. If bytes are then taken until there is none, they are the newest
    512 of those that the keys had typed and those that the serial port had received but for
    its first byte and for zeros, or of the former alone if there is no serial port.

    If there is none, a line that says so was put on every output device, on the screen from
    the cursor that the controller had, moved onto the screen. The receive register was not
    read, and it never is, however the console is used from then on and whatever arrives. Every
    command that only reads or only writes ends nevertheless. -/
theorem boot_keeps_keystrokes (b : Bench) {fuel : Nat} (hreceived : b.received.length < fuel)
    (hscancodes : b.scancodes.length < fuel) (records : List Record) :
    ∃ new c b₁ records₁,
      ofSettings {} = .ok new ∧
      new.init.run Bench.respond.handler.keepingRecords fuel (b, records) =
        .ok (c, b₁, records₁) ∧
      c.uart.present = b.uartPresent ∧
      (∃ c' s, (c.performAll (List.replicate (b.keptAtBoot.length + 1) .input)).run
          Bench.respond.handler.keepingRecords fuel (b₁, records₁) =
        .ok ((b.keptAtBoot.map (fun byte => .byte (some byte)) ++ [.byte none], c'), s)) ∧
      (b.uartPresent = false →
        b.Printed [0x0C] (min (b.crtcs.cursor b.adapter.crtcPort).toNat 1999) missingText b₁
          c.screen.cursor.toNat ∧
        ∀ c' b' records', ComesTo c b₁ records₁ c' b' records' →
          b'.readsOf Bench.uartPort = b.readsOf Bench.uartPort ∧
          ∀ command : Command, command.isInput = true ∨ command.isOutput = true →
            ∀ enough, b'.received.length < enough → b'.scancodes.length < enough → ∃ v s,
              (c'.perform command).run Bench.respond.handler.keepingRecords enough
                (b', records') = .ok (v, s)) := by
  rcases init_boots hscancodes records with ⟨c, ⟨b₁, r₁⟩, hrun, hbooted⟩
  have hfresh : fresh.OnBench b := ofSettings_onBench ofSettings_default b
  rcases init_onBench hfresh b records c (b₁, r₁) hrun with ⟨hbench, hcursor⟩
  refine ⟨fresh, c, b₁, r₁, ofSettings_default, hrun, hbooted.present, ?_,
    fun habsent => ⟨?_, ?_⟩⟩
  · rcases hbooted.inputs_take_kept hbench hreceived r₁ with
      ⟨⟨answers, c'⟩, s, htaken, hanswers⟩
    have hvalue : answers = b.keptAtBoot.map (fun byte => .byte (some byte)) ++ [.byte none] :=
      hanswers
    exact ⟨c', s, hvalue ▸ htaken⟩
  · rw [← Screen.adopted_cursor]
    exact hbooted.missing habsent
  · intro c' b' records' hcomes
    rcases hcomes.portless (portless_of_init hfresh habsent hrun) hcursor with
      ⟨hportless, hcursor'⟩
    refine ⟨hportless.reads, fun command hcommand enough hreceived' hscancodes' => ?_⟩
    rcases perform_ends hportless.bench hcursor' hreceived' hscancodes' records' hcommand with
      ⟨v, s, hends, _⟩
    exact ⟨v, s, hends⟩

/-- No serial port, a key that was pressed, and the cursor in the last cell. -/
def emptySocket : Bench where
  received := [0x41]
  scancodes := [0x1E]
  uartPresent := false
  crtcs := CrtcBank.empty.setCursor 0x3D4 1999

theorem boot_keeps_keystrokes_empty_socket :
    emptySocket.received.length < 2 ∧ emptySocket.scancodes.length < 2 ∧
    ∃ new c b₁ records₁, ofSettings {} = .ok new ∧
      new.init.run Bench.respond.handler.keepingRecords 2 (emptySocket, []) =
        .ok (c, b₁, records₁) ∧
      c.uart.present = false ∧
      (∃ c' s, (c.performAll [.input, .input]).run Bench.respond.handler.keepingRecords 2
        (b₁, records₁) = .ok (([.byte (some 0x61), .byte none], c'), s)) ∧
      b₁.writesTo 0x378 = missingText ++ [0x0A] ∧ c.screen.cursor.toNat = 1920 ∧
      b₁.cell 0xB8000 1839 = 0x0753 ∧ b₁.readsOf 0x3F8 = 0 := by
  refine ⟨by decide, by decide, ?_⟩
  obtain ⟨new, c, b₁, records₁, hnew, hrun, hpresent, hread, hmissing⟩ :=
    boot_keeps_keystrokes emptySocket (show 1 < 2 by decide) (show 1 < 2 by decide) []
  have hkept : emptySocket.keptAtBoot = [0x61] := by decide +kernel
  have hstart : min (emptySocket.crtcs.cursor emptySocket.adapter.crtcPort).toNat 1999 = 1999 := by
    decide +kernel
  rw [hkept] at hread
  obtain ⟨hprinted, hlater⟩ := hmissing rfl
  rw [hstart] at hprinted
  have hlength : missingText.length = 27 := by decide
  have hcursor := hprinted.cursor
  simp only [Tape.rowsUp, hlength, Screen.columns, Screen.rows] at hcursor
  refine ⟨new, c, b₁, records₁, hnew, hrun, hpresent, hread, hprinted.printer, by omega, ?_,
    (hlater c b₁ records₁ .refl).1⟩
  refine (hprinted.cells 1839 (by decide)).trans ?_
  decide +kernel

end Console

end KernelConsole
