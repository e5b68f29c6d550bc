import KernelConsole.Proofs.Bench
import KernelConsole.Proofs.Console.Termination

/-!
# A Console Without a Serial Port

On a bench that has no serial port a console never reads its receive register. It does not
when it is brought up, as the status already says that nobody is there. And it does not
later, as it then counts the port as absent and never looks again. This is so for every
step of a run, and so for every command, however long the console is used and whatever
arrives meanwhile.

## Main definitions

* `Bench.Avoids`: An access does not read a port.
* `Console.Portless`: A console on a bench that has no serial port.
* `Console.ComesTo`: What a console and its bench can come to.

## Theorems

* `Bench.reads_of_only`: A program that does not read a port.
* `Console.Step.portless`, `Console.Path.portless`: One step of a run, and several.
* `Console.ComesTo.portless`: However the console was used.
* `Console.perform_ends`: A command that only reads or only writes.
-/

namespace KernelConsole

open Prog

namespace Bench

/-- The access does not read the port. -/
def Avoids (port : UInt16) (a : Access) : Prop := ∀ r, a = .readReg r → r.port ≠ port

variable {port : UInt16}

/-- Reads of other ports do not count. -/
theorem readsOf_append {b b' : Bench} {ports : List UInt16}
    (h : b'.reads.toList = b.reads.toList ++ ports) (hnone : port ∉ ports) :
    b'.readsOf port = b.readsOf port := by
  have hzero : ports.countP (fun p => p == port) = 0 := List.count_eq_zero.2 hnone
  unfold readsOf
  rw [h, List.countP_append, hzero, Nat.add_zero]

/-- A program that does not read a port leaves no read of it behind. -/
theorem reads_of_only {α : Type} {p : LoggedIo α} (hp : p.Only (Reporting.Within (Avoids port)))
    {fuel : Nat} (b : Bench) (records : List Record) :
    p.Ensures respond.handler.keepingRecords fuel (b, records) fun _ s =>
      s.1.uartPresent = b.uartPresent ∧ s.1.readsOf port = b.readsOf port := by
  refine Only.ensures (K := fun s : Bench × List Record =>
    s.1.uartPresent = b.uartPresent ∧ s.1.readsOf port = b.readsOf port) ?_ hp ⟨rfl, rfl⟩
  rintro (access | record) hallowed ⟨e, r⟩ ⟨huart, hreads⟩ v s' hreply
  · cases hreply
    have hsaw := Saw.access access e
    -- Only a read of a register writes anything down, and that of another one.
    refine ⟨hsaw.uartPresent.trans huart, (readsOf_append hsaw.reads ?_).trans hreads⟩
    cases access with
    | readReg r => exact fun hmem => hallowed r rfl (List.mem_singleton.1 hmem).symm
    | _ => exact List.not_mem_nil
  · cases hreply
    exact ⟨huart, hreads⟩

end Bench

namespace Console

/-- The console drives the devices of a bench that has no serial port, and the receive
    register was read so often. -/
structure Portless (c : Console) (n : Nat) (b : Bench) : Prop where
  bench : c.OnBench b
  absent : b.uartPresent = false
  reads : b.readsOf Bench.uartPort = n

variable {n fuel : Nat} {c c' : Console} {b b' : Bench}

/-- The driver counts the port as absent. -/
theorem Portless.not_present (h : c.Portless n b) : c.uart.present ≠ true := fun hfound =>
  absurd ((h.bench.present hfound).symm.trans h.absent) nofun

/-- It does not matter what the console shows, queues and decodes. -/
theorem Portless.congr (h : c.Portless n b) (huart : c'.uart = c.uart)
    (hprinter : c'.printer = c.printer) (hstatus : c'.keyboard.statusPort = c.keyboard.statusPort)
    (hdata : c'.keyboard.dataPort = c.keyboard.dataPort)
    (hbench : b'.uartPresent = b.uartPresent ∧
      b'.readsOf Bench.uartPort = b.readsOf Bench.uartPort) : c'.Portless n b' where
  bench := h.bench.congr huart hprinter hstatus hdata hbench.1
  absent := hbench.1.trans h.absent
  reads := hbench.2.trans h.reads

/-- Work on the screen alone that does not read the receive register. -/
theorem portless_of_quiet {p : Io Console} (hquiet : p.Only (Bench.Avoids Bench.uartPort))
    (hscreen : p.Ensures Bench.respond.handler fuel b fun c' _ => ∃ screen, c' = { c with screen })
    (h : c.Portless n b) (records : List Record) :
    p.unreported.Ensures Bench.respond.handler.keepingRecords fuel (b, records) fun c' s =>
      c'.Portless n s.1 := by
  have hunreported : p.unreported.Ensures Bench.respond.handler.keepingRecords fuel (b, records)
      fun c' _ => ∃ screen, c' = { c with screen } := ensures_unreported hscreen
  refine ensures_mono (ensures_and hunreported
    (Bench.reads_of_only hquiet.unreported b records)) ?_
  rintro _ s ⟨⟨screen, rfl⟩, hkept⟩
  exact h.congr rfl rfl rfl rfl hkept

/-- No work reads the receive register. -/
theorem Work.portless {p : LoggedIo Console} (hp : Work c p) (h : c.Portless n b)
    (records : List Record) :
    p.Ensures Bench.respond.handler.keepingRecords fuel (b, records) fun c' s =>
      c'.Portless n s.1 := by
  have hwrite : ∀ r value, Bench.Avoids Bench.uartPort (.writeReg r value) := fun _ _ => nofun
  have hload : ∀ address, Bench.Avoids Bench.uartPort (.readCell address) := fun _ => nofun
  have hstore : ∀ address cell, Bench.Avoids Bench.uartPort (.writeCell address cell) :=
    fun _ _ => nofun
  cases hp with
  | startScreen =>
      have hcrtc : ∀ a, Bench.Avoids Bench.uartPort (.readReg (.crtcData a)) := by
        rintro a r ⟨rfl⟩
        cases a with
        | color => exact show (0x3D4 + 1 : UInt16) ≠ 0x3F8 by decide
        | monochrome => exact show (0x3B4 + 1 : UInt16) ≠ 0x3F8 by decide
      have hquiet := Screen.init_only (H := fun _ => True) hload hstore (fun _ => hwrite _) hcrtc
        c.screen
      refine ensures_bind (ensures_mono (Bench.reads_of_only hquiet b records) fun _ _ hkept => ?_)
      exact ensures_pure (h.congr rfl rfl rfl rfl hkept)
  | report level target message =>
      -- a record goes to the log, not to the hardware
      refine ensures_bind (ensures_call fun _ s hreport => ?_)
      cases hreport
      exact ensures_done (ensures_pure h)
  | output byte =>
      -- the status of the serial port and of the printer is all that is read
      have hquiet : (c.output byte).Only (Bench.Avoids Bench.uartPort) := by
        refine output_only_onBench h.bench.uart h.bench.printer ?_ hwrite hload hstore byte
        rintro r hport _ _ ⟨rfl⟩
        exact hport
      exact portless_of_quiet hquiet (output_screen byte) h records
  | setColor foreground background => exact ensures_pure (h.congr rfl rfl rfl rfl ⟨rfl, rfl⟩)
  | clearScreen =>
      have hquiet : c.clearScreen.Only (Bench.Avoids Bench.uartPort) :=
        Only.bind (Screen.clear_only hstore (fun _ => hwrite _) (fun _ => hwrite _) c.screen)
          fun _ => Only.pure
      refine portless_of_quiet hquiet (ensures_bind fun screen _ _ => ?_) h records
      exact ensures_pure ⟨screen, rfl⟩

/-- Programming a serial port that is not there reads its status, and nothing else of it. -/
theorem uart_portless (h : c.Portless n b) (records : List Record) :
    c.uart.init.unreported.Ensures Bench.respond.handler.keepingRecords fuel (b, records)
      fun uart s => ({ c with uart } : Console).Portless n s.1 := by
  refine ensures_unreported fun uart b' hrun => ?_
  obtain ⟨rfl, e, hwrote, hlooked⟩ := (Uart.init_bench h.bench.uart b).of_run hrun
  rw [h.absent] at hlooked ⊢
  have hreads : b'.readsOf Bench.uartPort = b.readsOf Bench.uartPort := by
    have hsame : e.readsOf Bench.uartPort = b.readsOf Bench.uartPort :=
      congrArg (fun reads : Array UInt16 => reads.toList.countP _) hwrote.reads
    exact (Bench.readsOf_append hlooked.reads (by decide)).trans hsame
  have hthere : b'.uartPresent = b.uartPresent :=
    congrArg Bench.Inlet.uartPresent hlooked.inlet
  exact ⟨⟨h.bench.uart, h.bench.printer, h.bench.keyboardStatus, h.bench.keyboardData, nofun⟩,
    hthere.trans h.absent, hreads.trans h.reads⟩

/-- A look at the keyboard reads the two ports of its controller. -/
theorem poll_portless (h : c.Portless n b) (records : List Record) :
    c.keyboard.poll.Ensures Bench.respond.handler.keepingRecords fuel (b, records) fun v s =>
      ({ c with keyboard := v.2 } : Console).Portless n s.1 := by
  have hquiet : c.keyboard.poll.Only (Reporting.Within (Bench.Avoids Bench.uartPort)) := by
    refine Keyboard.poll_only ?_ ?_ fun _ => nofun
    · rintro r ⟨rfl⟩
      exact fun hport => absurd (h.bench.keyboardStatus.symm.trans hport) (by decide)
    · rintro r ⟨rfl⟩
      exact fun hport => absurd (h.bench.keyboardData.symm.trans hport) (by decide)
  intro v s hrun
  have hkept := Bench.reads_of_only hquiet b records v s hrun
  rcases c.keyboard.poll_decoder v s hrun with ⟨decoder, hv⟩
  rw [hv]
  exact h.congr rfl rfl rfl rfl hkept

/-- Nothing that happens to a console reads the receive register. -/
theorem Step.portless {p q : Point Bench} {a : Action}
    (hstep : Step Bench.respond.handler fuel p a q) (h : p.1.Portless n p.2.1.1) :
    q.1.Portless n q.2.1.1 := by
  cases hstep with
  | receive present run =>
      -- no byte is taken from a port that counts as absent
      exact absurd present h.not_present
  | @scan c _ _ event? keyboard run =>
      have hpolled := ensures_watched (poll_portless h _) _ _ run
      cases event? with
      | none => exact hpolled
      | some event =>
          rcases enqueueEvent_queue { c with keyboard } event with ⟨queue, hqueued⟩
          change (enqueueEvent { c with keyboard } event).Portless n _
          rw [hqueued]
          exact hpolled.congr rfl rfl rfl rfl ⟨rfl, rfl⟩
  | take => exact h.congr rfl rfl rfl rfl ⟨rfl, rfl⟩
  | program run => exact ensures_watched (uart_portless h _) _ _ run
  | work isWork run => exact ensures_watched (isWork.portless h _) _ _ run

theorem Path.portless {p q : Point Bench} {as : List Action}
    (hpath : Path Bench.respond.handler fuel p as q) (h : p.1.Portless n p.2.1.1) :
    q.1.Portless n q.2.1.1 := by
  induction hpath with
  | nil p => exact h
  | cons hstep _ ih => exact ih (hstep.portless h)

/-- What a console and its bench can come to. Bytes may arrive at any time, and a device may
    become busy or ready. -/
inductive ComesTo (c : Console) (b : Bench) (records : List Record) :
    Console → Bench → List Record → Prop
  | refl : ComesTo c b records c b records
  | arrive {c' : Console} {b' : Bench} {records' : List Record}
      (before : ComesTo c b records c' b' records') (received scancodes : List UInt8)
      (transmitReady printerReady : Bool) :
      ComesTo c b records c' { b' with received, scancodes, transmitReady, printerReady } records'
  | perform {c' c'' : Console} {b' b'' : Bench} {records' records'' : List Record} {fuel : Nat}
      {command : Command} {answer : Answer}
      (before : ComesTo c b records c' b' records')
      (run : (c'.perform command).run Bench.respond.handler.keepingRecords fuel (b', records') =
        .ok ((answer, c''), b'', records'')) :
      ComesTo c b records c'' b'' records''

/-- A run that ends does so along a path. -/
theorem path_of_run {α σ : Type} {hw : Handler Hardware σ} {p : LoggedIo α} {view : α → Console}
    {s t : σ} {records records' : List Record} {a : α}
    (hpath : p.Ensures hw.observed fuel ((s, []), records) fun a s' =>
      ∃ as, Path hw fuel (c, (s, []), records) as (view a, s'))
    (hrun : p.run hw.keepingRecords fuel (s, records) = .ok (a, t, records')) :
    ∃ events as, Path hw fuel (c, (s, []), records) as (view a, (t, events), records') := by
  have hplain := run_watched hw fuel p ((s, []), records)
  rw [hrun] at hplain
  rcases bind_eq_ok.1 hplain with ⟨⟨a', ⟨t', events⟩, r'⟩, hwatched, hends⟩
  cases hends
  exact ⟨events, hpath _ _ hwatched⟩

/-- However the console is used and whatever arrives, its receive register is not read. -/
theorem ComesTo.portless {records records' : List Record}
    (hcomes : ComesTo c b records c' b' records') (h : c.Portless n b)
    (hcursor : c.screen.cursor.toNat < Screen.cells) :
    c'.Portless n b' ∧ c'.screen.cursor.toNat < Screen.cells := by
  induction hcomes with
  | refl => exact ⟨h, hcursor⟩
  | arrive _ received scancodes transmitReady printerReady ih =>
      -- what arrives is not read before a command asks for it
      exact ⟨ih.1.congr rfl rfl rfl rfl ⟨rfl, rfl⟩, ih.2⟩
  | @perform c₁ _ b₁ _ records₁ _ fuel command _ _ run ih =>
      have hpaths : (c₁.perform command).Ensures Bench.respond.handler.observed fuel
          ((b₁, []), records₁) _ := perform_path c₁ command _
      rcases path_of_run (ensures_mono hpaths fun _ _ ⟨as, hpath, _⟩ => ⟨as, hpath⟩) run with
        ⟨_, _, hpath⟩
      exact ⟨hpath.portless ih.1, hpath.onScreen ih.2⟩

/-- A command that only reads or only writes ends on any bench. -/
theorem perform_ends (hc : c.OnBench b) (hcursor : c.screen.cursor.toNat < Screen.cells)
    (hreceived : b.received.length < fuel) (hscancodes : b.scancodes.length < fuel)
    (records : List Record) {command : Command}
    (hcommand : command.isInput = true ∨ command.isOutput = true) :
    (c.perform command).Returns Bench.respond.handler.keepingRecords fuel (b, records)
      fun _ _ => True := by
  rcases hcommand with hinput | houtput
  · exact returns_mono (perform_look hc hreceived hscancodes hinput) fun _ _ _ => trivial
  · -- Nobody has to be ready, as a wait for a device is given up.
    obtain ⟨answer, e, hemit⟩ := perform_emit houtput
    rw [hemit c]
    refine returns_bind (returns_unreported (returns_mono (emit_returns hcursor e b)
      fun _ _ _ => ?_))
    exact returns_pure trivial

end Console

end KernelConsole
