import KernelConsole.Machine.Crtc
import KernelConsole.Proofs.Screen.Cursor
import KernelConsole.Proofs.Traces

/-!
# A Screen on Any Hardware

A screen trusts nothing it reads. The controller may start with any cursor, the adapter
may not be there, and cells may read back as anything: the cursor is brought onto the
screen when it is taken over and never leaves it again between two uses, and nothing is
accessed but the cells of one adapter and the two ports of its controller.

Writing a character and blanking the screen end with the same four writes, after all cells
have been written. So a controller that keeps what it is told shows the cursor of the
screen, whatever it showed before.

## Main definitions

* `Screen.Act`: What is done to a screen, finding its adapter included.
* `Screen.cursorEvents`: The writes that show a cursor.
* `CrtcBank.after`: Controllers that have been told what some events write.
* `Screen.Acted`, `Screen.ActedAll`: What an act accesses and how it leaves the screen.

## Theorems

* `CrtcBank.cursor_after`: Controllers that were told a cursor show it.
* `Screen.putChar_shown`, `Screen.clear_shown`: The events of a character and of blanking.
* `Screen.init_found`: Those of finding the adapter.
* `Screen.act_acted`: What one act does.
* `Screen.stays_on_adapter`: What any acts do, from the very start.
-/

namespace KernelConsole

open Prog

/-- The two halves of a word are the word again. -/
theorem toNat_halves (d : UInt16) :
    256 * (d >>> 8).toUInt8.toNat + d.toUInt8.toNat = d.toNat := by
  have hsize := d.toNat_lt
  rw [UInt16.toNat_toUInt8, UInt16.toNat_toUInt8, UInt16.toNat_shiftRight]
  rw [show (8 : UInt16).toNat % 16 = 8 from rfl, Nat.shiftRight_eq_div_pow]
  omega

namespace Event

/-- The port that an event accesses, if it does not access memory. -/
def port? : Event → Option UInt16
  | regRead r _ => some r.port
  | regWrite r _ => some r.port
  | cellRead _ _ => none
  | cellWrite _ _ => none

/-- The physical address that an event accesses, if it accesses memory. -/
def address? : Event → Option Nat
  | regRead _ _ => none
  | regWrite _ _ => none
  | cellRead address _ => some address
  | cellWrite address _ => some address

end Event

namespace Crtc

theorem get_set_self (c : Crtc) (index value : UInt8) : (c.set index value).get index = value := by
  unfold get set
  exact Vector.getElem_set_self _

theorem get_set_of_ne (c : Crtc) {index other : UInt8} (value : UInt8) (h : index ≠ other) :
    (c.set index value).get other = c.get other := by
  have hne : index.toNat ≠ other.toNat := fun heq => h (UInt8.toNat_inj.1 heq)
  exact Vector.getElem_set_ne (UInt8.toNat_lt index) (UInt8.toNat_lt other) hne

end Crtc

namespace CrtcBank

/-- The controllers of both adapters after a byte is written to a port. -/
def writePort (b : CrtcBank) (port : UInt16) (value : UInt8) : CrtcBank :=
  if port = Adapter.color.crtcPort ∨ port = Adapter.monochrome.crtcPort then
    b.select port value
  else if port = Adapter.color.crtcPort + 1 ∨ port = Adapter.monochrome.crtcPort + 1 then
    b.writeSelected (port - 1) value
  else b

/-- The controllers after some events. -/
def after (b : CrtcBank) (events : List Event) : CrtcBank :=
  (events.filterMap Event.portWrite?).foldl (fun b w => b.writePort w.1 w.2) b

/-- A byte to the index port of an adapter selects a register of its controller. -/
theorem writePort_index (b : CrtcBank) (a : Adapter) (value : UInt8) :
    b.writePort a.crtcPort value = b.select a.crtcPort value := by
  cases a with
  | color => exact if_pos (Or.inl rfl)
  | monochrome => exact if_pos (Or.inr rfl)

theorem writePort_data (b : CrtcBank) (a : Adapter) (value : UInt8) :
    b.writePort (a.crtcPort + 1) value = b.writeSelected a.crtcPort value := by
  cases a with
  | color => rfl
  | monochrome => rfl

theorem get_set (b : CrtcBank) (port : UInt16) (c : Crtc) : (b.set port c).get port = c :=
  Std.TreeMap.getD_insert_self

/-- The two halves of a cursor are the cursor again. -/
theorem halves_cursor (pos : UInt16) :
    (pos >>> 8).toUInt8.toUInt16 <<< 8 ||| pos.toUInt8.toUInt16 = pos := by
  have hhalves := toNat_halves pos
  have hhigh := (pos >>> 8).toUInt8.toNat_lt
  have hlow := pos.toUInt8.toNat_lt
  rw [← UInt16.toNat_inj, UInt16.toNat_or, UInt16.toNat_shiftLeft, UInt8.toNat_toUInt16,
    UInt8.toNat_toUInt16, show (8 : UInt16).toNat % 16 = 8 from rfl, Nat.shiftLeft_eq,
    Nat.mod_eq_of_lt (by omega), Nat.mul_comm, ← Nat.two_pow_add_eq_or_of_lt hlow]
  exact hhalves

end CrtcBank

namespace Screen

/-- The writes that show the cursor. -/
def cursorEvents (s : Screen) : List Event :=
  [.regWrite (.crtcIndex s.adapter) 14, .regWrite (.crtcData s.adapter) (s.cursor >>> 8).toUInt8,
    .regWrite (.crtcIndex s.adapter) 15, .regWrite (.crtcData s.adapter) s.cursor.toUInt8]

end Screen

/-- Whatever they showed before, the controllers show a cursor that they were told. -/
theorem CrtcBank.cursor_after (b : CrtcBank) (s : Screen) :
    (b.after s.cursorEvents).cursor s.adapter.crtcPort = s.cursor := by
  change CrtcBank.cursor ((((b.writePort s.adapter.crtcPort 14).writePort (s.adapter.crtcPort + 1)
    (s.cursor >>> 8).toUInt8).writePort s.adapter.crtcPort 15).writePort (s.adapter.crtcPort + 1)
    s.cursor.toUInt8) s.adapter.crtcPort = s.cursor
  rw [writePort_data, writePort_index, writePort_data, writePort_index]
  unfold cursor select writeSelected
  simp only [get_set]
  -- The low half was written last, to another register than the high half.
  rw [Crtc.get_set_self, Crtc.get_set_of_ne _ _ (by decide)]
  have hhigh : Crtc.get ⟨15, (Crtc.set ⟨14, (b.get s.adapter.crtcPort).registers⟩ 14
      (s.cursor >>> 8).toUInt8).registers⟩ 14 = (s.cursor >>> 8).toUInt8 :=
    Crtc.get_set_self _ _ _
  rw [hhigh]
  exact halves_cursor s.cursor

theorem CrtcBank.after_append (b : CrtcBank) (events later : List Event) :
    b.after (events ++ later) = (b.after events).after later := by
  unfold after
  rw [List.filterMap_append, List.foldl_append]

/-- An event in the buffer of an adapter accesses one of its cells and no port. -/
theorem Adapter.InBuffer.event {a : Adapter} {access : Access} (h : a.InBuffer access)
    (v : access.Reply) : (Event.of access v).port? = none ∧
      ∃ pos < Screen.cells, (Event.of access v).address? = some (a.cellAddress pos) := by
  cases access with
  | readReg r => exact h.elim
  | writeReg r value => exact h.elim
  | readCell address =>
      rcases h with ⟨pos, hpos, rfl⟩
      exact ⟨rfl, pos, hpos, rfl⟩
  | writeCell address cell =>
      rcases h with ⟨pos, hpos, rfl⟩
      exact ⟨rfl, pos, hpos, rfl⟩

namespace Screen

variable {σ : Type} {bus : Bus σ} {fuel : Nat}

theorem syncCursor_shown (s : Screen) (m : σ) :
    s.syncCursor.Traces bus fuel m fun _ events _ => events = s.cursorEvents :=
  traces_bind (traces_access (.writeReg _ _) (traces_bind (traces_access (.writeReg _ _)
    (traces_bind (traces_access (.writeReg _ _) (traces_access (.writeReg _ _) rfl))))))

/-- Some events are accesses to the cells of the adapter, and then show the cursor of the
    screen. -/
def Shown (s : Screen) (events : List Event) : Prop :=
  ∃ drawn, events = drawn ++ s.cursorEvents ∧ ∀ e ∈ drawn, e.port? = none ∧
    ∃ pos < cells, e.address? = some (s.adapter.cellAddress pos)

theorem putChar_eq (s : Screen) (c : UInt8) :
    s.putChar c = (s.interpretByte c >>= scrollIfNeeded) >>= fun s => s.syncCursor >>= fun _ =>
      pure s :=
  (LawfulMonad.bind_assoc _ _ _).symm

/-- Drawing that keeps to the cells, and then showing the cursor. -/
theorem drawn_shown {α : Type} {p : Io α} {s : Screen} {V : α → Prop} {f : α → Screen}
    (hp : p.Finishes s.adapter.InBuffer V) (hf : ∀ a, V a → (f a).adapter = s.adapter) (m : σ) :
    (p >>= fun a => (f a).syncCursor >>= fun _ => pure (f a)).Traces bus fuel m
      fun s' events _ => (∃ a, V a ∧ s' = f a) ∧ s'.Shown events := by
  refine traces_bind (traces_mono (hp.traces m) fun a drawn m₁ ⟨ha, hdrawn⟩ => ?_)
  refine traces_bind (traces_mono ((f a).syncCursor_shown m₁) fun _ shown m₂ hshown => ?_)
  -- The rest of the events are those of the drawing, which keeps to the cells of its adapter.
  refine traces_pure ⟨⟨a, ha, rfl⟩, drawn, by rw [hshown, List.append_nil], fun e he => ?_⟩
  rcases hdrawn e he with ⟨access, v, hin, rfl⟩
  rw [hf a ha]
  exact hin.event v

/-- A character is drawn, and then the cursor is shown. -/
theorem putChar_shown {s : Screen} (h : s.cursor.toNat < cells) (c : UInt8) (m : σ) :
    (s.putChar c).Traces bus fuel m fun s' events _ => s' = s.after c ∧ s'.Shown events := by
  rw [putChar_eq]
  refine traces_mono (drawn_shown (f := id) (drawn_after h c) ?_ m) ?_
  · rintro _ rfl
    rfl
  · rintro _ events _ ⟨⟨_, rfl, rfl⟩, hshown⟩
    exact ⟨rfl, hshown⟩

/-- All cells are blanked, and then the cursor is shown in the first one. -/
theorem clear_shown (s : Screen) (m : σ) :
    s.clear.Traces bus fuel m fun s' events _ => s' = s.moveTo 0 ∧ s'.Shown events :=
  traces_mono (drawn_shown (f := fun _ => s.moveTo 0) s.blankAll_draws (fun _ _ => rfl) m)
    fun _ _ _ ⟨⟨_, _, hs'⟩, hshown⟩ => ⟨hs', hshown⟩

/-- The access is one to the cell that is probed. -/
def Probes : Access → Prop
  | .readCell address => address = Adapter.color.buffer
  | .writeCell address _ => address = Adapter.color.buffer
  | .readReg _ => False
  | .writeReg _ _ => False

/-- The access selects or reads a register of an adapter's controller. -/
def Asks (a : Adapter) : Access → Prop
  | .readReg r => r = .crtcData a
  | .writeReg r _ => r = .crtcIndex a
  | .readCell _ => False
  | .writeCell _ _ => False

/-- Probing for an adapter accesses one cell, whatever that reads as. -/
theorem probe_finishes : probe.Finishes Probes fun _ => True := by
  have hread : (readCell Adapter.color.buffer).Finishes Probes fun _ => True :=
    finishes_one (I := Hardware) (r := .readCell _) rfl fun _ => trivial
  have hwrite : ∀ cell, (writeCell Adapter.color.buffer cell).Finishes Probes fun _ => True :=
    fun cell => finishes_one (I := Hardware) (r := .writeCell _ cell) rfl fun _ => trivial
  unfold probe
  refine finishes_bind (finishes_mono hread fun was _ => ?_)
  refine finishes_bind (finishes_mono (hwrite _) fun _ _ => ?_)
  refine finishes_bind (finishes_mono hread fun now _ => ?_)
  -- What was there is written back if there is memory, and there is nothing to write back
  -- otherwise.
  by_cases hcolor : now = probeCell
  · rw [if_pos hcolor]
    exact finishes_bind (finishes_mono (hwrite was) fun _ _ => finishes_pure trivial)
  · rw [if_neg hcolor]
    exact finishes_pure trivial

/-- Asking a controller for its cursor accesses its two ports. -/
theorem hardwareCursor_finishes (a : Adapter) :
    (hardwareCursor a).Finishes (Asks a) fun _ => True := by
  have hselect : ∀ index, (writeReg (.crtcIndex a) index).Finishes (Asks a) fun _ => True :=
    fun index => finishes_one (I := Hardware) (r := .writeReg _ index) rfl fun _ => trivial
  have hread : (readReg (.crtcData a)).Finishes (Asks a) fun _ => True :=
    finishes_one (I := Hardware) (r := .readReg _) rfl fun _ => trivial
  unfold hardwareCursor
  refine finishes_bind (finishes_mono (hselect _) fun _ _ => ?_)
  refine finishes_bind (finishes_mono hread fun high _ => ?_)
  refine finishes_bind (finishes_mono (hselect _) fun _ _ => ?_)
  exact finishes_bind (finishes_mono hread fun low _ => finishes_pure trivial)

/-- A cursor that is taken over is on the screen. -/
theorem min_cursor_lt (pos : UInt16) : (min pos (cells - 1).toUInt16).toNat < cells := by
  change (if pos ≤ 1999 then pos else 1999 : UInt16).toNat < cells
  by_cases hin : pos ≤ 1999
  · rw [if_pos hin]
    have hle := UInt16.le_iff_toNat_le.1 hin
    exact Nat.lt_of_le_of_lt hle (by decide)
  · rw [if_neg hin]
    decide

/-- Finding an adapter accesses the cell that is probed, and then the ports of the
    controller that goes with what was found. -/
theorem init_found (s : Screen) (m : σ) :
    s.init.Observes bus fuel m fun s' events _ => s'.cursor.toNat < cells ∧ ∀ e ∈ events,
      (∀ address, e.address? = some address → address = Adapter.color.buffer) ∧
      ∀ port, e.port? = some port →
        port = s'.adapter.crtcPort ∨ port = s'.adapter.crtcPort + 1 := by
  unfold init
  refine observes_bind (observes_mono (observes_unreported (probe_finishes.traces m))
    fun adapter probed m₁ ⟨_, hprobed⟩ => ?_)
  refine observes_bind (observes_report _ _ _ (observes_bind (observes_mono
    (observes_unreported ((hardwareCursor_finishes adapter).traces m₁))
    fun pos asked m₂ ⟨_, hasked⟩ => observes_pure ⟨min_cursor_lt pos, fun e he => ?_⟩)))
  rw [List.nil_append, List.append_nil] at he
  rcases List.mem_append.1 he with hmem | hmem
  · -- probing accesses one cell and no port
    rcases hprobed e hmem with ⟨access, v, hat, rfl⟩
    cases access with
    | readReg r => exact hat.elim
    | writeReg r value => exact hat.elim
    | readCell address => exact ⟨fun _ h => Option.some.inj h ▸ hat, nofun⟩
    | writeCell address cell => exact ⟨fun _ h => Option.some.inj h ▸ hat, nofun⟩
  · -- asking for the cursor accesses the two ports and no cell
    rcases hasked e hmem with ⟨access, v, hat, rfl⟩
    cases access with
    | readReg r =>
        refine ⟨nofun, fun port h => Or.inr ?_⟩
        rw [← Option.some.inj h, show r = _ from hat]
        rfl
    | writeReg r value =>
        refine ⟨nofun, fun port h => Or.inl ?_⟩
        rw [← Option.some.inj h, show r = _ from hat]
        rfl
    | readCell address => exact hat.elim
    | writeCell address cell => exact hat.elim

/-- What is done to a screen, finding its adapter included. -/
inductive Act
  /-- The adapter is found. -/
  | init
  /-- The screen is used. -/
  | op (op : Op)

/-- The act writes to the cells and then shows the cursor. -/
def Act.Draws : Act → Prop
  | .op (.put _) => True
  | .op .clear => True
  | _ => False

/-- Does one thing to a screen. -/
def act (s : Screen) : Act → LoggedIo Screen
  | .init => s.init
  | .op op => (s.perform op).unreported

/-- Does one thing after the other. -/
def actAll : List Act → Screen → LoggedIo Screen
  | [], s => pure s
  | a :: rest, s => do
      let s ← s.act a
      actAll rest s

/-- What an act accesses and how it leaves the screen. -/
structure Acted (a : Act) (before : Screen) (events : List Event) (after : Screen) : Prop where
  /-- The cursor is on the screen. -/
  cursor : after.cursor.toNat ≤ 1999
  /-- The cells and the controller are those of one adapter. -/
  adapter : (after.adapter.buffer, after.adapter.crtcPort) = (0xB8000, 0x3D4) ∨
    (after.adapter.buffer, after.adapter.crtcPort) = (0xB0000, 0x3B4)
  /-- No port is accessed but those of the controller. -/
  ports : ∀ e ∈ events, ∀ port, e.port? = some port →
    port = after.adapter.crtcPort ∨ port = after.adapter.crtcPort + 1
  /-- Only the cell that is probed is accessed to find the adapter. -/
  probed : a = .init → ∀ e ∈ events, ∀ address, e.address? = some address → address = 0xB8000
  /-- Otherwise the adapter stays, and only its cells are accessed. -/
  cells : a ≠ .init → after.adapter = before.adapter ∧
    ∀ e ∈ events, ∀ address, e.address? = some address →
      ∃ pos < 2000, address = after.adapter.buffer + 2 * pos
  /-- What draws ends with the four writes that show the cursor, and no port is accessed
      before them. -/
  shown : a.Draws → ∃ drawn, events = drawn ++ after.cursorEvents ∧ ∀ e ∈ drawn, e.port? = none
  /-- So controllers that keep what they are told show the cursor, whatever they showed
      before. -/
  controller : a.Draws → ∀ b : CrtcBank,
    (b.after events).cursor after.adapter.crtcPort = after.cursor

/-- The same for acts one after the other, each with its events. -/
inductive ActedAll : Screen → List (Act × List Event) → Screen → Prop
  | nil (s : Screen) : ActedAll s [] s
  | cons {before s after : Screen} {a : Act} {events : List Event}
      {rest : List (Act × List Event)} (first : Acted a before events s)
      (others : ActedAll s rest after) : ActedAll before ((a, events) :: rest) after

theorem adapter_pair (a : Adapter) : (a.buffer, a.crtcPort) = (0xB8000, 0x3D4) ∨
    (a.buffer, a.crtcPort) = (0xB0000, 0x3B4) := by
  cases a with
  | color => exact Or.inl rfl
  | monochrome => exact Or.inr rfl

/-- What shows the cursor is drawing, as `Acted` says it. -/
theorem Shown.acted {before after : Screen} {a : Act} {events : List Event}
    (h : after.Shown events) (hinit : a ≠ .init) (hcursor : after.cursor.toNat < Screen.cells)
    (hadapter : after.adapter = before.adapter) : Acted a before events after := by
  rcases h with ⟨drawn, rfl, hdrawn⟩
  -- What was drawn accesses cells only, and the four writes after it ports only.
  have hshown : ∀ e ∈ after.cursorEvents, e.address? = none ∧ ∀ port, e.port? = some port →
      port = after.adapter.crtcPort ∨ port = after.adapter.crtcPort + 1 := by
    intro e he
    simp only [cursorEvents, List.mem_cons, List.not_mem_nil, or_false] at he
    rcases he with rfl | rfl | rfl | rfl
    · exact ⟨rfl, fun _ hport => Or.inl (Option.some.inj hport).symm⟩
    · exact ⟨rfl, fun _ hport => Or.inr (Option.some.inj hport).symm⟩
    · exact ⟨rfl, fun _ hport => Or.inl (Option.some.inj hport).symm⟩
    · exact ⟨rfl, fun _ hport => Or.inr (Option.some.inj hport).symm⟩
  refine ⟨Nat.le_of_lt_succ hcursor, adapter_pair _, fun e he port hport => ?_,
    fun h => absurd h hinit, fun _ => ⟨hadapter, fun e he address haddress => ?_⟩,
    fun _ => ⟨drawn, rfl, fun e he => (hdrawn e he).1⟩, fun _ b => ?_⟩
  · rcases List.mem_append.1 he with hmem | hmem
    · rw [(hdrawn e hmem).1] at hport
      cases hport
    · exact (hshown e hmem).2 port hport
  · rcases List.mem_append.1 he with hmem | hmem
    · rcases (hdrawn e hmem).2 with ⟨pos, hpos, hcell⟩
      exact ⟨pos, hpos, Option.some.inj (haddress.symm.trans hcell)⟩
    · rw [(hshown e hmem).1] at haddress
      cases haddress
  · rw [CrtcBank.after_append]
    exact CrtcBank.cursor_after _ after

/-- What one act does, whatever the hardware. -/
theorem act_acted {s : Screen} (h : s.cursor.toNat < cells) (a : Act) (m : σ) :
    (s.act a).Observes bus fuel m fun s' events _ => Acted a s events s' := by
  cases a with
  | init =>
      refine observes_mono (s.init_found m) fun s' events _ ⟨hcursor, hevents⟩ => ?_
      exact ⟨Nat.le_of_lt_succ hcursor, adapter_pair _, fun e he => (hevents e he).2,
        fun _ e he => (hevents e he).1, fun hne => absurd rfl hne, False.elim, False.elim⟩
  | op op =>
      refine observes_unreported ?_
      cases op with
      | put c =>
          refine traces_mono (putChar_shown h c m) ?_
          rintro _ events _ ⟨rfl, hshown⟩
          exact hshown.acted nofun (after_lt h c) rfl
      | setColor foreground background =>
          -- Choosing colours accesses nothing at all, so everything that is said of its events
          -- holds.
          exact traces_pure ⟨Nat.le_of_lt_succ h, adapter_pair _, nofun, nofun,
            fun _ => ⟨rfl, nofun⟩, False.elim, False.elim⟩
      | clear =>
          refine traces_mono (s.clear_shown m) ?_
          rintro _ events _ ⟨rfl, hshown⟩
          exact hshown.acted nofun (show (0 : Nat).toUInt16.toNat < cells by decide) rfl

/-- Acts one after the other, each from the screen that the one before it has left. -/
theorem actAll_acted (acts : List Act) {s : Screen} (h : s.cursor.toNat < cells) (m : σ) :
    (actAll acts s).Observes bus fuel m fun s' events _ => ∃ parts,
      parts.map Prod.fst = acts ∧ events = (parts.map Prod.snd).flatten ∧ ActedAll s parts s' := by
  induction acts generalizing s m with
  | nil => exact observes_pure ⟨[], rfl, rfl, .nil s⟩
  | cons a rest ih =>
      refine observes_bind (observes_mono (act_acted h a m) fun s₁ e₁ m₁ hfirst => ?_)
      refine observes_mono (ih (Nat.lt_succ_of_le hfirst.cursor) m₁) ?_
      rintro s₂ _ m₂ ⟨parts, rfl, rfl, hrest⟩
      exact ⟨(a, e₁) :: parts, rfl, rfl, .cons hfirst hrest⟩

/-- Whatever the hardware answers, any acts on a screen that was just made end, so no
    cursor leaves its sixteen bits, and each of them leaves the cursor on the screen and
    accesses nothing but the cells and the controller of one adapter. -/
theorem stays_on_adapter (bus : Bus σ) (m : σ) (fuel : Nat) (acts : List Act) :
    ∃ parts s' m', bus.observe fuel (actAll acts {}) m =
        .ok (s', (parts.map Prod.snd).flatten, m') ∧
      parts.map Prod.fst = acts ∧ ActedAll {} parts s' := by
  have hfirst : ({} : Screen).cursor.toNat < cells := by decide
  rcases (actAll_acted acts hfirst m).observe with ⟨s', _, m', hrun, parts, hacts, rfl, hacted⟩
  exact ⟨parts, s', m', hrun, hacts, hacted⟩

end Screen

end KernelConsole
