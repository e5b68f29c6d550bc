import KernelConsole.Proofs.Bench
import KernelConsole.Proofs.Console.Draining

/-!
# Taking Over a Screen

Finding the adapter writes to a cell that may be in use, and selects registers of a
controller. On a bench none of that can be seen afterwards: the cell holds what it held,
because it is written back where there is memory and was never written where there is
none, and every register has its value. The screen has the adapter that is there and the
cursor that its controller shows.

A screen that has drawn anything since has told its controller where the cursor is. Taking
it over once more changes nothing then, wherever the cursor was at first.

## Main definitions

* `Bench.Undisturbed`: No cell, no register of a controller and nothing that waits has
  changed.
* `Bench.adapter`: The adapter that is there.
* `Screen.adopted`: A screen that was taken over from a bench.
* `Screen.Op.Draws`: A use that writes to the cells.

## Theorems

* `Screen.probe_bench`, `Screen.hardwareCursor_bench`: The two halves of taking over.
* `Screen.init_bench`: Both.
* `Screen.perform_synced`, `Screen.performAll_synced`: Drawing keeps the controller in step.
* `Screen.adopted_self`: A screen in step with its controller.
* `Screen.init_preserves_screen`: Taking over, taking over again, and drawing between.
-/

namespace KernelConsole

open Prog

namespace CrtcBank

/-- Setting one controller of the bank leaves the others. -/
theorem get_set_of_ne (b : CrtcBank) {port other : UInt16} (h : port ≠ other) (c : Crtc) :
    (b.set port c).get other = b.get other := by
  have hne : ¬(compare port other = .eq) := fun heq => h (Std.LawfulEqCmp.eq_of_compare heq)
  exact (Std.TreeMap.getD_insert).trans (if_neg hne)

/-- Selecting a register changes none. -/
theorem registers_select (b : CrtcBank) (port other : UInt16) (index : UInt8) :
    ((b.select port index).get other).registers = (b.get other).registers := by
  unfold select
  by_cases h : port = other
  · rw [h, get_set]
  · rw [get_set_of_ne b h]

/-- The register that was selected is the one that is read. -/
theorem readSelected_select (b : CrtcBank) (port : UInt16) (index : UInt8) :
    (b.select port index).readSelected port = (b.get port).get index := by
  unfold select readSelected
  rw [get_set]
  rfl

theorem get_eq_of_registers {c d : Crtc} (h : c.registers = d.registers) (index : UInt8) :
    c.get index = d.get index := by
  unfold Crtc.get
  rw [h]

end CrtcBank

namespace Bench

/-- No cell and no register of a display controller has changed, and what waits still
    does. Another register of a controller may be selected. -/
structure Undisturbed (b b' : Bench) : Prop where
  memory : ∀ address, b'.memory.read address = b.memory.read address
  registers : ∀ port, (b'.crtcs.get port).registers = (b.crtcs.get port).registers
  colorPresent : b'.colorPresent = b.colorPresent
  inlet : b'.inlet = b.inlet

theorem Undisturbed.trans {b b₁ b₂ : Bench} (h : b.Undisturbed b₁) (h' : b₁.Undisturbed b₂) :
    b.Undisturbed b₂ where
  memory address := (h'.memory address).trans (h.memory address)
  registers port := (h'.registers port).trans (h.registers port)
  colorPresent := h'.colorPresent.trans h.colorPresent
  inlet := h'.inlet.trans h.inlet

theorem Undisturbed.readCell {b b' : Bench} (h : b.Undisturbed b') (address : Nat) :
    b'.readCell address = b.readCell address := by
  unfold Bench.readCell
  rw [h.colorPresent, h.memory]

theorem Undisturbed.cursor {b b' : Bench} (h : b.Undisturbed b') (port : UInt16) :
    b'.crtcs.cursor port = b.crtcs.cursor port := by
  simp only [CrtcBank.cursor, CrtcBank.get_eq_of_registers (h.registers port)]

/-- The adapter that is there. There always is a monochrome one. -/
def adapter (b : Bench) : Adapter :=
  if b.colorPresent then .color else .monochrome

/-- The port that a controller's register is read from. -/
theorem readPort_crtcData (b : Bench) (a : Adapter) :
    b.readPort (a.crtcPort + 1) =
      (b.crtcs.readSelected a.crtcPort, { b with reads := b.reads.push (a.crtcPort + 1) }) := by
  -- The port is none of those of the other devices.
  have hother : a.crtcPort + 1 ≠ 0x84 ∧ a.crtcPort + 1 ≠ keyboardStatusPort ∧
      a.crtcPort + 1 ≠ keyboardDataPort ∧ ¬uartPort ≤ a.crtcPort + 1 ∧
      a.crtcPort + 1 ≠ uartPort + 5 ∧ a.crtcPort + 1 ≠ uartPort ∧
      a.crtcPort + 1 ≠ uartPort + 2 ∧ a.crtcPort + 1 ≠ printerPort + 1 := by
    cases a with
    | color => decide
    | monochrome => decide
  have hdata : a.crtcPort + 1 = colorCrtcPort + 1 ∨ a.crtcPort + 1 = monoCrtcPort + 1 := by
    cases a with
    | color => exact .inl rfl
    | monochrome => exact .inr rfl
  have hindex : a.crtcPort + 1 - 1 = a.crtcPort := UInt16.add_sub_cancel a.crtcPort 1
  rcases hother with ⟨hdelay, hstatus, hcode, huart, hline, hreceive, hident, hprinter⟩
  unfold readPort portValue
  rw [if_neg hdelay, if_neg hstatus, if_neg hcode, if_neg fun h => huart h.1, if_neg hline,
    if_neg hreceive, if_neg hident, if_neg hprinter, if_pos hdata, hindex]

/-- A byte to a controller's index port selects a register of it. -/
theorem writePort_crtcIndex (b : Bench) (a : Adapter) (index : UInt8) :
    b.writePort a.crtcPort index =
      { b with writes := b.writes.push (a.crtcPort, index),
               crtcs := b.crtcs.select a.crtcPort index } := by
  cases a with
  | color => rfl
  | monochrome => rfl

theorem undisturbed_select (b : Bench) (a : Adapter) (index : UInt8) :
    b.Undisturbed (b.writePort a.crtcPort index) := by
  rw [writePort_crtcIndex]
  exact ⟨fun _ => rfl, fun port => b.crtcs.registers_select a.crtcPort port index, rfl, rfl⟩

theorem undisturbed_readPort_crtcData (b : Bench) (a : Adapter) :
    b.Undisturbed (b.readPort (a.crtcPort + 1)).2 := by
  rw [readPort_crtcData]
  exact ⟨fun _ => rfl, fun _ => rfl, rfl, rfl⟩

theorem inColorBuffer_buffer : inColorBuffer Adapter.color.buffer = true := by decide

/-- Where there is no memory the first cell of the colour adapter floats. -/
theorem readCell_buffer (b : Bench) :
    b.readCell Adapter.color.buffer =
      if b.colorPresent then b.memory.read Adapter.color.buffer else 0xFFFF := by
  unfold readCell
  rw [inColorBuffer_buffer, Bool.true_and]
  cases b.colorPresent with
  | true => rfl
  | false => rfl

theorem writeCell_buffer (b : Bench) (cell : UInt16) :
    b.writeCell Adapter.color.buffer cell =
      if b.colorPresent then { b with memory := b.memory.write Adapter.color.buffer cell }
      else b := by
  unfold writeCell
  rw [inColorBuffer_buffer, Bool.true_and]
  cases b.colorPresent with
  | true => rfl
  | false => rfl

/-- A cell that is written and then written back holds what it held. -/
theorem undisturbed_writeBack (b : Bench) (cell : UInt16) (address : Nat) :
    b.Undisturbed
      { b with memory := (b.memory.write address cell).write address (b.memory.read address) } where
  memory other := by
    by_cases h : address = other
    · rw [Memory.read_write, if_pos h, h]
    · rw [Memory.read_write, if_neg h, Memory.read_write, if_neg h]
  registers _ := rfl
  colorPresent := rfl
  inlet := rfl

end Bench

namespace Screen

variable {fuel : Nat}

/-- The cell that is probed holds what it held: where there is memory it is written back,
    and where there is none it was not written. -/
theorem probe_bench (b : Bench) :
    probe.Returns Bench.respond.handler fuel b fun a b' => a = b.adapter ∧ b.Undisturbed b' := by
  unfold probe
  refine returns_bind (returns_access (.readCell _) ?_)
  refine returns_bind (returns_access (.writeCell _ _) ?_)
  refine returns_bind (returns_access (.readCell _) ?_)
  change Returns _ _ (if (b.writeCell Adapter.color.buffer probeCell).readCell
    Adapter.color.buffer = probeCell then _ else _) (b.writeCell Adapter.color.buffer probeCell) _
  unfold Bench.adapter
  by_cases hcolor : b.colorPresent = true
  · -- what was written is read back
    have hnow : ({ b with memory := b.memory.write Adapter.color.buffer probeCell } :
        Bench).readCell Adapter.color.buffer = probeCell := by
      rw [Bench.readCell_buffer, if_pos hcolor, Memory.read_write, if_pos rfl]
    rw [b.writeCell_buffer, if_pos hcolor, if_pos hnow, if_pos hcolor]
    refine returns_bind (returns_access (.writeCell _ _) (returns_pure ⟨rfl, ?_⟩))
    change b.Undisturbed (({ b with memory := _ } : Bench).writeCell Adapter.color.buffer
      (b.readCell Adapter.color.buffer))
    rw [Bench.writeCell_buffer, if_pos hcolor, b.readCell_buffer, if_pos hcolor]
    exact b.undisturbed_writeBack probeCell Adapter.color.buffer
  · -- the bus floats, and not to what was written
    have hnow : b.readCell Adapter.color.buffer ≠ probeCell := by
      rw [b.readCell_buffer, if_neg hcolor]
      decide
    rw [b.writeCell_buffer, if_neg hcolor, if_neg hnow, if_neg hcolor]
    exact returns_pure ⟨rfl, fun _ => rfl, fun _ => rfl, rfl, rfl⟩

/-- Selecting a register and reading it. -/
theorem register_bench {α : Type} (a : Adapter) (index : UInt8) {next : UInt8 → Io α} {b : Bench}
    {Q : α → Bench → Prop}
    (hnext : ∀ b', b.Undisturbed b' →
      (next ((b.crtcs.get a.crtcPort).get index)).Returns Bench.respond.handler fuel b' Q) :
    (writeReg (.crtcIndex a) index >>= fun _ => readReg (.crtcData a) >>= next).Returns
      Bench.respond.handler fuel b Q := by
  have hvalue : ((b.writePort a.crtcPort index).readPort (a.crtcPort + 1)).1 =
      (b.crtcs.get a.crtcPort).get index := by
    rw [Bench.readPort_crtcData, b.writePort_crtcIndex]
    exact b.crtcs.readSelected_select a.crtcPort index
  refine returns_bind (returns_access (.writeReg _ _) ?_)
  refine returns_bind (returns_access (.readReg _) ?_)
  change Returns _ _ (next ((b.writePort a.crtcPort index).readPort (a.crtcPort + 1)).1) _ _
  rw [hvalue]
  exact hnext _ ((b.undisturbed_select a index).trans (Bench.undisturbed_readPort_crtcData _ a))

/-- The cursor is in two registers, and asking for the one does not change the other. -/
theorem hardwareCursor_bench (a : Adapter) (b : Bench) :
    (hardwareCursor a).Returns Bench.respond.handler fuel b fun pos b' =>
      pos = b.crtcs.cursor a.crtcPort ∧ b.Undisturbed b' := by
  refine register_bench a cursorHigh fun b₁ h₁ => ?_
  refine register_bench a cursorLow fun b₂ h₂ => returns_pure ⟨?_, h₁.trans h₂⟩
  -- Reading the high half has selected a register, but has not changed the low half.
  rw [CrtcBank.get_eq_of_registers (h₁.registers a.crtcPort)]
  rfl

/-- The screen after it was taken over from a bench. -/
def adopted (s : Screen) (b : Bench) : Screen :=
  { s with
    adapter := b.adapter
    cursor := min (b.crtcs.cursor b.adapter.crtcPort) (cells - 1).toUInt16 }

/-- Taking a screen over from a bench finds the adapter that is there and its cursor, and
    disturbs nothing. -/
theorem init_bench (s : Screen) (b : Bench) (records : List Record) :
    s.init.Returns Bench.respond.handler.keepingRecords fuel (b, records) fun s' t =>
      s' = s.adopted b ∧ b.Undisturbed t.1 := by
  refine returns_bind (returns_unreported (returns_mono (probe_bench b) ?_))
  rintro _ b₁ ⟨rfl, h₁⟩
  refine returns_bind ⟨(), _, rfl, ?_⟩
  refine returns_bind (returns_unreported (returns_mono (hardwareCursor_bench b.adapter b₁) ?_))
  rintro _ b₂ ⟨rfl, h₂⟩
  refine returns_pure ⟨?_, h₁.trans h₂⟩
  rw [h₁.cursor]
  rfl

/-- Nothing that a screen is taken over from has changed. -/
theorem adopted_congr {b b' : Bench} (h : b.Undisturbed b') (s : Screen) :
    s.adopted b' = s.adopted b := by
  have hadapter : b'.adapter = b.adapter := by
    unfold Bench.adapter
    rw [h.colorPresent]
  unfold adopted
  rw [hadapter, h.cursor]

theorem adopted_lt (s : Screen) (b : Bench) : (s.adopted b).cursor.toNat < cells :=
  min_cursor_lt _

theorem adopted_cursor (s : Screen) (b : Bench) :
    (s.adopted b).cursor.toNat = min (b.crtcs.cursor b.adapter.crtcPort).toNat 1999 := by
  change (if b.crtcs.cursor b.adapter.crtcPort ≤ 1999 then b.crtcs.cursor b.adapter.crtcPort
    else 1999 : UInt16).toNat = _
  by_cases hin : b.crtcs.cursor b.adapter.crtcPort ≤ 1999
  · rw [if_pos hin]
    exact (Nat.min_eq_left (UInt16.le_iff_toNat_le.1 hin)).symm
  · rw [if_neg hin]
    exact (Nat.min_eq_right (Nat.le_of_lt (UInt16.lt_iff_toNat_lt.1 (UInt16.not_le.1 hin)))).symm

/-- The colour adapter is taken over exactly if it is there. -/
theorem adopted_color_iff (s : Screen) (b : Bench) :
    (s.adopted b).adapter = .color ↔ b.colorPresent = true := by
  change (if b.colorPresent then Adapter.color else .monochrome) = .color ↔ _
  cases b.colorPresent with
  | true => exact iff_of_true rfl rfl
  | false => exact iff_of_false nofun nofun

/-- A screen that has the adapter that is there and whose controller shows its cursor is
    taken over as it is. -/
theorem adopted_self {s : Screen} {b : Bench} (hadapter : s.adapter = b.adapter)
    (hsync : b.crtcs.cursor s.adapter.crtcPort = s.cursor) (hcursor : s.cursor.toNat < cells) :
    s.adopted b = s := by
  -- The cursor is on the screen, so it is not moved.
  have hmin : min s.cursor (cells - 1).toUInt16 = s.cursor := by
    change (if s.cursor ≤ 1999 then s.cursor else 1999 : UInt16) = s.cursor
    refine if_pos (UInt16.le_iff_toNat_le.2 ?_)
    exact Nat.le_of_lt_succ hcursor
  unfold adopted
  rw [← hadapter, hsync, hmin]

/-- The use writes to the cells and then shows the cursor. -/
def Op.Draws : Op → Prop
  | .put _ => True
  | .setColor _ _ => False
  | .clear => True

section

variable {σ : Type} {bus : Bus σ}

/-- The controller shows the cursor after a use that draws, and after any other if it did
    before. -/
theorem perform_synced {s : Screen} (h : s.cursor.toNat < cells) (op : Op) (m : σ) :
    (s.perform op).Traces bus fuel m fun s' events _ =>
      s'.cursor.toNat < cells ∧ s'.adapter = s.adapter ∧
      ∀ bank : CrtcBank, op.Draws ∨ bank.cursor s.adapter.crtcPort = s.cursor →
        (bank.after events).cursor s'.adapter.crtcPort = s'.cursor := by
  have hshown : ∀ {s' : Screen} {events : List Event}, s'.Shown events → ∀ bank : CrtcBank,
      (bank.after events).cursor s'.adapter.crtcPort = s'.cursor := by
    -- What comes last is the cursor, whatever the controller was told before.
    rintro s' _ ⟨drawn, rfl, _⟩ bank
    rw [CrtcBank.after_append]
    exact CrtcBank.cursor_after _ s'
  cases op with
  | put c =>
      refine traces_mono (putChar_shown h c m) ?_
      rintro _ events _ ⟨rfl, hevents⟩
      exact ⟨after_lt h c, rfl, fun bank _ => hshown hevents bank⟩
  | setColor foreground background =>
      -- nothing is drawn and nothing moves
      exact traces_pure ⟨h, rfl, fun bank hbank => hbank.resolve_left id⟩
  | clear =>
      refine traces_mono (s.clear_shown m) ?_
      rintro _ events _ ⟨rfl, hevents⟩
      exact ⟨show (0 : Nat).toUInt16.toNat < cells by decide, rfl,
        fun bank _ => hshown hevents bank⟩

/-- The same for any uses one after the other. One of them that draws is enough, as the
    controller stays in step from there on. -/
theorem performAll_synced (ops : List Op) {s : Screen} (h : s.cursor.toNat < cells) (m : σ) :
    (s.performAll ops).Traces bus fuel m fun s' events _ =>
      s'.cursor.toNat < cells ∧ s'.adapter = s.adapter ∧
      ∀ bank : CrtcBank, (∃ op ∈ ops, op.Draws) ∨ bank.cursor s.adapter.crtcPort = s.cursor →
        (bank.after events).cursor s'.adapter.crtcPort = s'.cursor := by
  induction ops generalizing s m with
  | nil =>
      refine traces_pure ⟨h, rfl, fun bank hbank => ?_⟩
      exact hbank.resolve_left fun ⟨_, hmem, _⟩ => List.not_mem_nil hmem
  | cons op rest ih =>
      refine traces_bind (traces_mono (perform_synced h op m) ?_)
      rintro s₁ e₁ m₁ ⟨h₁, hadapter₁, hsync₁⟩
      refine traces_mono (ih h₁ m₁) ?_
      rintro s₂ e₂ m₂ ⟨h₂, hadapter₂, hsync₂⟩
      refine ⟨h₂, hadapter₂.trans hadapter₁, fun bank hbank => ?_⟩
      rw [CrtcBank.after_append]
      -- A use that draws is the first one or among the others.
      rcases hbank with ⟨op', hmem, hdraws⟩ | hbank
      · rcases List.mem_cons.1 hmem with rfl | hmem
        · exact hsync₂ _ (.inr (hsync₁ bank (.inl hdraws)))
        · exact hsync₂ _ (.inl ⟨op', hmem, hdraws⟩)
      · exact hsync₂ _ (.inr (hsync₁ bank (.inr hbank)))

end

/-- Taking a screen over ends on every bench, with the adapter that is there, the cursor of
    its controller moved onto the screen, and the colours as they were, and no cell has
    changed. Taking it over again changes neither the screen nor a cell nor a register of a
    controller. And if it was used in between, and drew anything, it is taken over as it is:
    wherever the cursor was at first, the controller shows where it is now. -/
theorem init_preserves_screen (s : Screen) (b : Bench) (fuel : Nat) (records : List Record) :
    ∃ s₁ b₁ r₁,
      s.init.run Bench.respond.handler.keepingRecords fuel (b, records) = .ok (s₁, b₁, r₁) ∧
      (∀ address, b₁.readCell address = b.readCell address ∧
        b₁.memory.read address = b.memory.read address) ∧
      (s₁.adapter = .color ↔ b.colorPresent = true) ∧
      s₁.cursor.toNat = min (b.crtcs.cursor s₁.adapter.crtcPort).toNat 1999 ∧
      s₁.colors = s.colors ∧
      (∃ b₂ r₂,
        s₁.init.run Bench.respond.handler.keepingRecords fuel (b₁, r₁) = .ok (s₁, b₂, r₂) ∧
        (∀ address, b₂.readCell address = b₁.readCell address ∧
          b₂.memory.read address = b₁.memory.read address) ∧
        ∀ port index, (b₂.crtcs.get port).get index = (b₁.crtcs.get port).get index) ∧
      ∀ ops : List Op, (∃ op ∈ ops, op.Draws) → ∃ s₂ b₂ r₂ b₃ r₃,
        (s₁.performAll ops).unreported.run Bench.respond.handler.keepingRecords fuel (b₁, r₁) =
          .ok (s₂, b₂, r₂) ∧
        s₂.init.run Bench.respond.handler.keepingRecords fuel (b₂, r₂) = .ok (s₂, b₃, r₃) ∧
        ∀ address, b₃.readCell address = b₂.readCell address ∧
          b₃.memory.read address = b₂.memory.read address := by
  have hcells : ∀ {b b' : Bench}, b.Undisturbed b' → ∀ address,
      b'.readCell address = b.readCell address ∧
        b'.memory.read address = b.memory.read address :=
    fun h address => ⟨h.readCell address, h.memory address⟩
  obtain ⟨_, ⟨b₁, r₁⟩, hrun₁, rfl, h₁⟩ :
      s.init.Returns Bench.respond.handler.keepingRecords fuel (b, records) _ :=
    init_bench s b records
  refine ⟨s.adopted b, b₁, r₁, hrun₁, hcells h₁, s.adopted_color_iff b, s.adopted_cursor b, rfl,
    ?_, fun ops hdraws => ?_⟩
  · -- The bench looks as it did the first time.
    obtain ⟨s₂, ⟨b₂, r₂⟩, hrun₂, hs₂, h₂⟩ :
        (s.adopted b).init.Returns Bench.respond.handler.keepingRecords fuel (b₁, r₁) _ :=
      init_bench (s.adopted b) b₁ r₁
    have hsame : s₂ = s.adopted b := by
      rw [hs₂, adopted_congr h₁]
      rfl
    rw [hsame] at hrun₂
    exact ⟨b₂, r₂, hrun₂, hcells h₂,
      fun port index => CrtcBank.get_eq_of_registers (h₂.registers port) index⟩
  · -- What was drawn has left the controller in step with the screen.
    have hdrawn : ((s.adopted b).performAll ops).Traces Bench.respond fuel b₁ _ :=
      performAll_synced ops (s.adopted_lt b) b₁
    obtain ⟨s₂, ⟨b₂, r₂⟩, hrun₂, events, ⟨hcursor, hadapter, hsync⟩, hsaw⟩ :=
      (observes_unreported hdrawn).bench r₁
    obtain ⟨s₃, ⟨b₃, r₃⟩, hrun₃, hs₃, h₃⟩ :
        s₂.init.Returns Bench.respond.handler.keepingRecords fuel (b₂, r₂) _ :=
      init_bench s₂ b₂ r₂
    -- No use changes which adapter is there, and the screen has kept the one it found.
    have hthere : s₂.adapter = b₂.adapter := by
      refine hadapter.trans ?_
      unfold Bench.adapter
      rw [hsaw.colorPresent, h₁.colorPresent]
      rfl
    have hshows : b₂.crtcs.cursor s₂.adapter.crtcPort = s₂.cursor := by
      rw [hsaw.crtcs]
      exact hsync b₁.crtcs (.inl hdraws)
    rw [hs₃, adopted_self hthere hshows hcursor] at hrun₃
    exact ⟨s₂, b₂, r₂, b₃, r₃, hrun₂, hrun₃, hcells h₃⟩

/-- The controller of the colour adapter has its cursor far beyond the screen, and the first
    cell holds what is written to probe it. -/
def farCursor : Bench where
  memory := Memory.empty.write 0xB8000 probeCell
  crtcs := CrtcBank.empty.setCursor 0x3D4 0xFFFF

/-- The cursor is taken over in the last cell, and what is drawn from there is taken over as it
    is. -/
theorem init_preserves_screen_far_cursor :
    (∃ op ∈ [Op.put 0x41, .setColor .red .blue], op.Draws) ∧
    ∃ s₁ b₁ r₁ s₂ b₂ r₂ b₃ r₃,
      ({} : Screen).init.run Bench.respond.handler.keepingRecords 0 (farCursor, []) =
        .ok (s₁, b₁, r₁) ∧
      s₁.adapter = .color ∧ s₁.cursor.toNat = 1999 ∧ b₁.readCell 0xB8000 = probeCell ∧
      (s₁.performAll [.put 0x41, .setColor .red .blue]).unreported.run
        Bench.respond.handler.keepingRecords 0 (b₁, r₁) = .ok (s₂, b₂, r₂) ∧
      s₂.init.run Bench.respond.handler.keepingRecords 0 (b₂, r₂) = .ok (s₂, b₃, r₃) := by
  have hdraws : ∃ op ∈ [Op.put 0x41, .setColor .red .blue], op.Draws :=
    ⟨.put 0x41, List.mem_cons_self, trivial⟩
  obtain ⟨s₁, b₁, r₁, hrun₁, hcells, hcolor, hcursor, _, _, hdrawn⟩ :=
    init_preserves_screen {} farCursor 0 []
  obtain ⟨s₂, b₂, r₂, b₃, r₃, hrun₂, hrun₃, _⟩ := hdrawn _ hdraws
  have hadapter : s₁.adapter = .color := hcolor.2 rfl
  rw [hadapter] at hcursor
  refine ⟨hdraws, s₁, b₁, r₁, s₂, b₂, r₂, b₃, r₃, hrun₁, hadapter, ?_, ?_, hrun₂, hrun₃⟩
  · rw [hcursor]
    decide +kernel
  · rw [(hcells 0xB8000).1]
    decide +kernel

end Screen

end KernelConsole
