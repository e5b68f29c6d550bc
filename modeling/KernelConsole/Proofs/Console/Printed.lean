import KernelConsole.Proofs.Bench
import KernelConsole.Proofs.Console.Halves
import KernelConsole.Proofs.Console.Showing
import KernelConsole.Proofs.Screen.Adoption
import KernelConsole.Proofs.Screen.Text

/-!
# A Line on Every Device of a Bench

What a line of text leaves behind when a console writes it on a bench. The serial port and
the printer got its bytes, each once and in order. The cells of the adapter that is there
hold the text where the cursor was, with the rest as it was, moved up by as many rows as
it took to begin a new row after the text.

The cells of the colour adapter are plain memory only where there is memory. So the bench is
looked at together with the adapter that it has, which no access changes.

## Main definitions

* `Bench.bytesTo`: The bytes that some port writes put to a port.
* `Bench.OffScreen`: A port that belongs to no display controller.
* `Bench.Having`, `Bench.respondHaving`: A bench that has an adapter, as a bus.
* `Tape.rowsUp`: The rows that a line moves the screen up.
* `Bench.Printed`: A line on every device.

## Theorems

* `Bench.writesTo_of_outlet`, `Bench.writesTo_of_offScreen`: What is not written to a port.
* `Bench.bytesTo_textWrites`, `Console.writesTo_of_traffic`: The port writes of a text, port by
  port.
* `Bench.plainBuffer_respondHaving`: The cells of the adapter that is there.
* `Console.writeBytes_cells`: What a text leaves in the cells.
* `Console.writeLine_prints`: What a line leaves everywhere.
-/

namespace KernelConsole

open Prog

namespace Bench

/-- The bytes that some port writes put to a port, in order. -/
def bytesTo (port : UInt16) (ws : List (UInt16 × UInt8)) : List UInt8 :=
  ws.filterMap fun w => if w.1 = port then some w.2 else none

variable {port : UInt16}

theorem bytesTo_append (ws vs : List (UInt16 × UInt8)) :
    bytesTo port (ws ++ vs) = bytesTo port ws ++ bytesTo port vs :=
  List.filterMap_append

theorem writesTo_append {b b' : Bench} {ws : List (UInt16 × UInt8)}
    (h : b'.writes.toList = b.writes.toList ++ ws) :
    b'.writesTo port = b.writesTo port ++ bytesTo port ws := by
  change bytesTo port b'.writes.toList = bytesTo port b.writes.toList ++ bytesTo port ws
  rw [h, bytesTo_append]

/-- The port belongs to no display controller. -/
def OffScreen (port : UInt16) : Prop :=
  ∀ a : Adapter, a.crtcPort ≠ port ∧ a.crtcPort + 1 ≠ port

instance : Decidable (OffScreen port) :=
  decidable_of_iff ((Adapter.color.crtcPort ≠ port ∧ Adapter.color.crtcPort + 1 ≠ port) ∧
    Adapter.monochrome.crtcPort ≠ port ∧ Adapter.monochrome.crtcPort + 1 ≠ port)
    ⟨fun h a => by cases a with
      | color => exact h.1
      | monochrome => exact h.2, fun h => ⟨h .color, h .monochrome⟩⟩

/-- Nothing was written to a port if no output device was reached and it is one of theirs. -/
theorem writesTo_of_outlet {b b' : Bench} (h : b'.outlet = b.outlet)
    (hport : isOutputPort port = true) : b'.writesTo port = b.writesTo port := by
  -- The writes to the output devices are enough to tell.
  have houtput : ∀ e : Bench, e.writesTo port = bytesTo port e.outputWrites := by
    intro e
    change bytesTo port e.writes.toList = bytesTo port e.outputWrites
    unfold bytesTo outputWrites
    rw [List.filterMap_filter]
    refine List.filterMap_congr fun w _ => ?_
    by_cases hw : w.1 = port
    · rw [hw, if_pos rfl, if_pos hport]
    · rw [if_neg hw, ite_self]
  rw [houtput, houtput]
  exact congrArg (fun o : Outlet => bytesTo port o.writes) h

/-- Nothing was written to a port if only a display controller was. -/
theorem writesTo_of_offScreen {b b' : Bench} {events : List Event} (h : b.Saw events b')
    {a : Adapter}
    (hevents : ∀ e ∈ events, ∀ q, e.port? = some q → q = a.crtcPort ∨ q = a.crtcPort + 1)
    (hport : OffScreen port) : b'.writesTo port = b.writesTo port := by
  have hnone : bytesTo port (events.filterMap Event.portWrite?) = [] := by
    refine List.filterMap_eq_nil_iff.2 fun w hw => if_neg ?_
    rcases List.mem_filterMap.1 hw with ⟨e, he, hwrite⟩
    cases e with
    | regWrite r value =>
        cases hwrite
        rcases hevents _ he r.port rfl with hindex | hdata
        · exact fun hsame => (hport a).1 (hindex.symm.trans hsame)
        · exact fun hsame => (hport a).2 (hdata.symm.trans hsame)
    | _ => cases hwrite
  rw [writesTo_append h.writes, hnone, List.append_nil]

theorem bytesTo_cursorWrites (h : OffScreen port) (s : Screen) :
    bytesTo port s.cursorWrites = [] := by
  rcases h s.adapter with ⟨hindex, hdata⟩
  simp only [bytesTo, Screen.cursorWrites, List.filterMap_cons, if_neg hindex, if_neg hdata,
    List.filterMap_nil]

/-- Every byte of a text is put to a port in the same way. -/
theorem bytesTo_textWrites (h : OffScreen port) (s : Settings) (screen : Screen)
    (bytes : List UInt8) :
    bytesTo port (Console.textWrites s screen bytes).flatten =
      bytes.flatMap fun byte => bytesTo port (s.byteWrites byte) := by
  induction bytes generalizing screen with
  | nil => rfl
  | cons byte rest ih =>
      rw [Console.textWrites, List.flatten_cons, bytesTo_append, bytesTo_append,
        bytesTo_cursorWrites h, List.append_nil, ih, List.flatMap_cons]

/-- A bench that has this adapter. -/
abbrev Having (a : Adapter) : Type := { b : Bench // b.adapter = a }

theorem adapter_congr {b b' : Bench} (h : b'.colorPresent = b.colorPresent) :
    b'.adapter = b.adapter := by
  unfold adapter
  rw [h]

/-- Such a bench as a bus. No access takes the adapter away. -/
def respondHaving (a : Adapter) : Bus (Having a) := fun access b =>
  ((respond access b.1).1, ⟨(respond access b.1).2,
    (adapter_congr (Saw.access access b.1).colorPresent).trans b.2⟩)

/-- There is memory where the adapter that is there has its cells. -/
theorem memory_there {a : Adapter} (b : Having a) {i : Nat} (hi : i < Screen.cells) :
    ¬(inColorBuffer (a.cellAddress i) && !b.1.colorPresent) = true := by
  rcases b with ⟨b, rfl⟩
  by_cases hcolor : b.colorPresent = true
  · rw [hcolor, Bool.not_true, Bool.and_false]
    exact nofun
  · -- The cells of the monochrome adapter are below those of the colour adapter.
    have hbelow : ¬colorBuffer ≤ b.adapter.cellAddress i := by
      have hlt : i < 2000 := hi
      unfold adapter
      rw [if_neg hcolor]
      simp only [Adapter.cellAddress, Adapter.buffer, colorBuffer]
      omega
    simp only [inColorBuffer, decide_eq_false hbelow, Bool.false_and]
    exact nofun

/-- The memory of a bench is plain where there is an adapter. -/
theorem plainBuffer_respondHaving (a : Adapter) :
    PlainBuffer (respondHaving a) a fun b i => b.1.cell a.buffer i where
  read b i hi := if_neg (memory_there b hi)
  write b cell i hi j hj := by
    have hstored : (b.1.writeCell (a.cellAddress i) cell).cell a.buffer j =
        (b.1.memory.write (a.cellAddress i) cell).read (a.cellAddress j) := by
      unfold writeCell
      rw [if_neg (memory_there b hi)]
      rfl
    refine hstored.trans ?_
    have haddress : a.cellAddress i = a.cellAddress j ↔ j = i := by
      simp only [Adapter.cellAddress]
      omega
    rw [Memory.read_write]
    by_cases hsame : j = i
    · rw [if_pos hsame, if_pos (haddress.2 hsame)]
    · rw [if_neg hsame, if_neg (mt haddress.1 hsame)]
      rfl
  other b access hother j hj := by
    have hkept := (Saw.access access b.1).memory (a.cellAddress j)
    -- A register is at no address.
    have hport : ∀ e : Event, e.address? = none →
        ∀ e' ∈ [e], e'.address? ≠ some (a.cellAddress j) := by
      intro e hnone e' he
      rw [List.mem_singleton.1 he, hnone]
      exact (Option.some_ne_none _).symm
    cases access with
    | readCell address => rfl
    | readReg r => exact hkept (hport _ rfl)
    | writeReg r value => exact hkept (hport _ rfl)
    | writeCell address cell =>
        refine hkept fun e he haddress => ?_
        rw [List.mem_singleton.1 he] at haddress
        exact hother j hj cell (congrArg (Access.writeCell · cell) (Option.some.inj haddress))

end Bench

namespace Tape

/-- The rows that a line moves the screen up if it starts in the cell `start`. -/
def rowsUp (start : Nat) (text : List UInt8) : Nat :=
  (start + text.length) / Screen.columns + 1 - (Screen.rows - 1)

end Tape

/-- A line of text that starts in the cell `start` was put on every device of the bench,
    after the bytes `low` were put to the serial port. The cursor is in the row below it. -/
structure Bench.Printed (b : Bench) (low : List UInt8) (start : Nat) (text : List UInt8)
    (b' : Bench) (cursor : Nat) : Prop where
  serial : b'.writesTo uartPort = b.writesTo uartPort ++ (low ++ (text ++ [0x0A]))
  printer : b'.writesTo printerPort = b.writesTo printerPort ++ (text ++ [0x0A])
  /-- The printer was told of each byte once. -/
  strobes : b'.writesTo (printerPort + 2) = b.writesTo (printerPort + 2) ++
    (text ++ [0x0A]).flatMap fun _ => [Printer.strobe, Printer.selected]
  cells : ∀ i < Screen.cells, b'.cell b.adapter.buffer i =
    Tape.overlaid (b.cell b.adapter.buffer) {} start text
      (Screen.columns * Tape.rowsUp start text + i)
  cursor : Screen.columns * Tape.rowsUp start text + cursor =
    Screen.columns * ((start + text.length) / Screen.columns + 1)

namespace Console

variable {fuel : Nat} {c : Console} {b : Bench}

/-- A text leaves the window of the tape in the cells of the adapter that is there. -/
theorem writeBytes_cells (hadapter : c.screen.adapter = b.adapter)
    (hcursor : c.screen.cursor.toNat < Screen.cells) (bytes : List UInt8) :
    (c.writeBytes bytes).Returns Bench.respond.handler fuel b fun c' b' =>
      (∀ i < Screen.cells, b'.cell b.adapter.buffer i =
        ((c.screen.tape (b.cell b.adapter.buffer)).putAll bytes).cells
          (((c.screen.tape (b.cell b.adapter.buffer)).putAll bytes).base + i)) ∧
      ((c.screen.tape (b.cell b.adapter.buffer)).putAll bytes).pos =
        ((c.screen.tape (b.cell b.adapter.buffer)).putAll bytes).base +
          c'.screen.cursor.toNat := by
  have hstart : Screen.Shows b.adapter (fun (e : Bench.Having b.adapter) i =>
      e.1.cell b.adapter.buffer i) (c.screen.tape (b.cell b.adapter.buffer)) c.screen ⟨b, rfl⟩ :=
    ⟨hadapter, rfl, (Nat.zero_add _).symm, fun i _ => congrArg _ (Nat.zero_add i).symm⟩
  obtain ⟨c', b', hrun, hshows⟩ :
      (c.writeBytes bytes).Returns (Bench.respondHaving b.adapter).handler fuel ⟨b, rfl⟩ _ :=
    writeBytes_shows (Bench.plainBuffer_respondHaving b.adapter) bytes hstart
      (c.screen.inWindow_tape hcursor _)
  -- That the adapter stays is only said of the bench, and changes no answer of it.
  have hplain : forget Subtype.val
      ((c.writeBytes bytes).run (Bench.respondHaving b.adapter).handler fuel ⟨b, rfl⟩) =
        (c.writeBytes bytes).run Bench.respond.handler fuel b :=
    run_forget (fun _ _ => rfl) fuel (c.writeBytes bytes) _
  rw [hrun] at hplain
  exact ⟨c', b'.1, hplain.symm, hshows.window, hshows.pos⟩

/-- The port writes of parts are those of the whole. -/
theorem portWrites_flatten {n : Nat} {writes : List (List (UInt16 × UInt8))}
    {parts : List (List Event)} (h : List.Forall₂ (PortTraffic · n ·) writes parts) :
    parts.flatten.filterMap Event.portWrite? = writes.flatten := by
  induction h with
  | nil => rfl
  | cons hfirst _ ih =>
      rw [List.flatten_cons, List.flatten_cons, List.filterMap_append, hfirst.writes_eq, ih]

/-- What a text puts to a port that belongs to no display controller, byte by byte. -/
theorem writesTo_of_traffic {n : Nat} {s : Settings} {screen : Screen} {bytes : List UInt8}
    {parts : List (List Event)} {b' : Bench} {port : UInt16} (hsaw : b.Saw parts.flatten b')
    (htraffic : List.Forall₂ (PortTraffic · n ·) (textWrites s screen bytes) parts)
    (hport : Bench.OffScreen port) :
    b'.writesTo port =
      b.writesTo port ++ bytes.flatMap fun byte => Bench.bytesTo port (s.byteWrites byte) := by
  rw [Bench.writesTo_append hsaw.writes, portWrites_flatten htraffic,
    Bench.bytesTo_textWrites hport]

/-- A line of characters is put on every device, whether or not anybody is there, and takes
    nothing from the input devices. -/
theorem writeLine_prints (hdrives : c.Drives {}) (hadapter : c.screen.adapter = b.adapter)
    (hcolors : c.screen.colors = {}) (hcursor : c.screen.cursor.toNat < Screen.cells)
    {text : List UInt8} (htext : ∀ ch ∈ text, 0x20 ≤ ch) (records : List Record) :
    (c.writeBytes (text ++ [0x0A])).unreported.Returns Bench.respond.handler.keepingRecords fuel
      (b, records) fun c' s => (∃ screen, c' = { c with screen }) ∧ s.1.inlet = b.inlet ∧
        b.Printed [] c.screen.cursor.toNat text s.1 c'.screen.cursor.toNat := by
  obtain ⟨c', b', hrun, hcells, hpos⟩ :
      (c.writeBytes (text ++ [0x0A])).Returns Bench.respond.handler fuel b _ :=
    writeBytes_cells hadapter hcursor (text ++ [0x0A])
  have hunreported : (c.writeBytes (text ++ [0x0A])).unreported.run
      Bench.respond.handler.keepingRecords fuel (b, records) = .ok (c', b', records) := by
    rw [run_unreported, hrun]
    rfl
  -- The same run as its accesses, for the ports.
  obtain ⟨events, ⟨rfl, parts, rfl, htraffic⟩, hsaw⟩ := ((observes_unreported
    (writeBytes_traffic (text ++ [0x0A]) hdrives hcursor b)).bench records).of_run hunreported
  have hprinter : c.printer.base = Bench.printerPort := by
    rw [hdrives.printer]
    rfl
  have hinlet : b'.inlet = b.inlet := writeBytes_inlet _ hdrives.uartBase hprinter rfl _ b' hrun
  -- What the tape says about the cells.
  rcases Tape.putAll_line hcursor (b.cell b.adapter.buffer) htext with ⟨hfollows, hend, hholds⟩
  have hbase : ((c.screen.tape (b.cell b.adapter.buffer)).putAll (text ++ [0x0A])).base =
      Screen.columns * Tape.rowsUp c.screen.cursor.toNat text := by
    rw [hfollows, hend, Nat.mul_div_cancel _ (by decide), Nat.mul_comm]
    rfl
  have hone : ∀ bytes : List UInt8, (bytes.flatMap fun byte => [byte]) = bytes :=
    List.flatMap_singleton'
  refine ⟨_, (b', records), hunreported, ⟨_, rfl⟩, hinlet, ?_, ?_, ?_, fun i hi => ?_, ?_⟩
  · exact (writesTo_of_traffic hsaw htraffic (by decide)).trans (congrArg _ (hone _))
  · exact (writesTo_of_traffic hsaw htraffic (by decide)).trans (congrArg _ (hone _))
  · exact writesTo_of_traffic hsaw htraffic (by decide)
  · rw [hcells i hi, hholds.cells _ (by omega), hcolors, hbase]
  · rw [← hbase, ← hpos, hend, Nat.mul_comm]

end Console

end KernelConsole
