import KernelConsole.Proofs.Console.Halves
import KernelConsole.Proofs.Console.Startup
import KernelConsole.Proofs.Console.Steps
import KernelConsole.Proofs.Ending
import KernelConsole.Proofs.Uart.Programming

/-!
# Which Uses of a Console End

Writing ends on any hardware, as every wait is counted. Looking at an input device does
not: a drain takes bytes as long as the device says that one is waiting, and nothing counts
them. So it ends exactly if the device runs dry, and a device that is not there never does,
because a register that nobody drives reads as all ones.

A serial port is asked only if it answered when it was programmed, which keeps an empty
socket from being drained. It does not keep one from being drained that was emptied later,
and nothing of the kind is asked of the keyboard controller. Bringing up a console drains
the keyboard as well, so without a controller it never comes up.

## Main definitions

* `Uart.RunsDry`, `Keyboard.RunsDry`: A device has no more bytes after finitely many.
* `floating`: Hardware that nobody drives.

## Theorems

* `Console.serialInterrupt_endsIff`, `Console.keyboardInterrupt_endsIff`: When the drains
  end.
* `Console.init_endsIff`, `Console.input_endsIff`: When what drains the devices ends.
* `Console.Path.onScreen`: The cursor stays on the screen.
* `Console.ends_iff_runs_dry`: All of it, for a console that was used in any way.
* `Console.undriven_bus_drained_for_ever`: Hardware that is not there.
-/

namespace KernelConsole

open Prog

variable {σ : Type}

namespace Uart

/-- No byte waits in a UART. -/
def IsEmpty (u : Uart) (bus : Bus σ) (m : σ) : Prop :=
  (bus (.readReg (u.reg .lineStatus)) m).1 &&& received = 0

/-- The hardware after a byte was taken from it. -/
def takeByte (u : Uart) (bus : Bus σ) (m : σ) : σ :=
  (bus (.readReg (u.reg .receive)) (bus (.readReg (u.reg .lineStatus)) m).2).2

/-- No byte waits in it any more when some have been taken. -/
def RunsDry (u : Uart) (bus : Bus σ) (m : σ) : Prop :=
  ∃ n, u.IsEmpty bus ((u.takeByte bus)^[n] m)

end Uart

namespace Keyboard

/-- No byte waits in the controller of a keyboard. -/
def IsEmpty (bus : Bus σ) (x : Keyboard × σ) : Prop :=
  (bus (.readReg (.keyboardStatus x.1.statusPort)) x.2).1 &&& waiting = 0

/-- The keyboard and the hardware after a byte was taken, which may have reset the
    machine. -/
def takeByte (bus : Bus σ) (x : Keyboard × σ) : Keyboard × σ :=
  let asked := (bus (.readReg (.keyboardStatus x.1.statusPort)) x.2).2
  let (scancode, read) := bus (.readReg (.keyboardData x.1.dataPort)) asked
  let (reset, decoder) := (x.1.decoder.feed scancode).2.takeReset
  ({ x.1 with decoder },
    if reset then (bus (.writeReg .systemControl resetMachine) read).2 else read)

/-- No byte waits in it any more when some have been taken. -/
def RunsDry (k : Keyboard) (bus : Bus σ) (m : σ) : Prop :=
  ∃ n, IsEmpty bus ((takeByte bus)^[n] (k, m))

end Keyboard

variable {bus : Bus σ} {fuel : Nat} {m : σ}

open Bus

theorem Uart.tryReceive_none {u : Uart} (h : u.IsEmpty bus m) :
    u.tryReceive.Returns bus.handler fuel m fun byte? _ => byte? = none := by
  unfold IsEmpty at h
  unfold tryReceive
  refine returns_bind (returns_access _ ?_)
  rw [if_pos h]
  exact returns_pure rfl

theorem Uart.tryReceive_some {u : Uart} (h : ¬u.IsEmpty bus m) :
    u.tryReceive.Returns bus.handler fuel m fun byte? m' =>
      (∃ byte, byte? = some byte) ∧ m' = u.takeByte bus m := by
  unfold IsEmpty at h
  unfold tryReceive
  refine returns_bind (returns_access _ ?_)
  rw [if_neg h]
  exact returns_bind (returns_access _ (returns_pure ⟨⟨_, rfl⟩, rfl⟩))

namespace Keyboard

theorem poll_none {k : Keyboard} (h : IsEmpty bus (k, m)) :
    k.poll.Returns bus.silent fuel m fun v _ => v = (none, k) := by
  simp only [IsEmpty] at h
  unfold poll
  refine returns_bind (returns_silent (returns_access _ ?_))
  simp only [if_pos h]
  exact returns_pure rfl

/-- Decoding a byte resets the machine if it asks for that. -/
theorem handle_takes (k : Keyboard) (scancode : UInt8) (m : σ) :
    (k.handle scancode).Returns bus.silent fuel m fun v m' =>
      v.2 = { k with decoder := (k.decoder.feed scancode).2.takeReset.2 } ∧
      m' = if (k.decoder.feed scancode).2.takeReset.1 then
        (bus (.writeReg .systemControl resetMachine) m).2 else m := by
  have hreport : ∀ (level : Level) (target message : String),
      (report level target message).Returns bus.silent fuel m fun _ m' => m' = m :=
    fun _ _ _ => ⟨(), m, rfl, rfl⟩
  unfold handle
  by_cases hreset : (k.decoder.feed scancode).2.takeReset.1 = true
  · simp only [if_pos hreset]
    refine returns_bind (returns_mono (hreport _ _ _) ?_)
    rintro _ _ rfl
    exact returns_bind (returns_silent (returns_access _ (returns_pure ⟨rfl, rfl⟩)))
  · simp only [if_neg hreset]
    exact returns_pure ⟨rfl, rfl⟩

theorem poll_some {k : Keyboard} (h : ¬IsEmpty bus (k, m)) :
    k.poll.Returns bus.silent fuel m fun v m' =>
      (∃ event, v.1 = some event) ∧ (v.2, m') = takeByte bus (k, m) := by
  simp only [IsEmpty] at h
  unfold poll
  refine returns_bind (returns_silent (returns_access _ ?_))
  simp only [if_neg h]
  refine returns_bind (returns_silent (returns_access _ ?_))
  refine returns_bind (returns_mono (handle_takes k _ _) ?_)
  rintro ⟨event, _⟩ _ ⟨rfl, rfl⟩
  exact returns_pure ⟨⟨event, rfl⟩, rfl⟩

end Keyboard

namespace Console

/-- The drain of the serial port takes from the UART. -/
theorem serial_drains (u : Uart) : Drains bus.silent
    (fun c : Console => Prog.unreported do
      match ← c.uart.tryReceive with
      | none => pure (.inr c)
      | some byte => pure (.inl (c.enqueue byte)))
    (fun c m x => c.uart = u ∧ m = x) (u.IsEmpty bus) (u.takeByte bus) where
  stops := by
    rintro fuel c m _ ⟨rfl, rfl⟩ hempty
    refine returns_silent (returns_bind (returns_mono (Uart.tryReceive_none hempty) ?_))
    rintro _ m₁ rfl
    exact returns_pure ⟨c, rfl⟩
  goes := by
    rintro fuel c m _ ⟨rfl, rfl⟩ hbyte
    refine returns_silent (returns_bind (returns_mono (Uart.tryReceive_some hbyte) ?_))
    rintro _ m₁ ⟨⟨byte, rfl⟩, rfl⟩
    exact returns_pure ⟨c.enqueue byte, rfl, by rw [enqueue_eq], rfl⟩

/-- The drain of the keyboard takes from its controller. -/
theorem keyboard_drains : Drains bus.silent
    (fun c : Console => do
      let (event?, keyboard) ← c.keyboard.poll
      let c := { c with keyboard }
      match event? with
      | none => pure (.inr c)
      | some event => pure (.inl (c.enqueueEvent event)))
    (fun c m x => (c.keyboard, m) = x) (Keyboard.IsEmpty bus) (Keyboard.takeByte bus) where
  stops := by
    rintro fuel c m _ rfl hempty
    refine returns_bind (returns_mono (Keyboard.poll_none hempty) ?_)
    rintro _ m₁ rfl
    exact returns_pure ⟨_, rfl⟩
  goes := by
    rintro fuel c m _ rfl hbyte
    refine returns_bind (returns_mono (Keyboard.poll_some hbyte) ?_)
    rintro ⟨_, keyboard⟩ m₁ ⟨⟨event, rfl⟩, hnext⟩
    rcases enqueueEvent_queue { c with keyboard } event with ⟨queue, hqueue⟩
    refine returns_pure ⟨_, rfl, ?_⟩
    rw [hqueue]
    exact hnext

/-- Draining a serial port ends exactly if it is not marked present or runs dry. -/
theorem serialInterrupt_endsIff (c : Console) (m : σ) :
    bus.EndsIff c.serialInterrupt.unreported m
      (c.uart.present = true → c.uart.RunsDry bus m) := by
  unfold serialInterrupt
  by_cases hpresent : c.uart.present = true
  · rw [if_pos hpresent]
    simp only [hpresent, true_imp_iff]
    exact (serial_drains c.uart).endsIff ⟨rfl, rfl⟩
  · rw [if_neg hpresent]
    exact ⟨fun _ => ⟨c, m, 0, [], rfl⟩, fun h => absurd (fun hp => absurd hp hpresent) h⟩

/-- Draining a keyboard ends exactly if it runs dry. -/
theorem keyboardInterrupt_endsIff (c : Console) (m : σ) :
    bus.EndsIff c.keyboardInterrupt m (c.keyboard.RunsDry bus m) :=
  keyboard_drains.endsIff rfl

/-- Draining a serial port changes the queue alone. -/
theorem serialInterrupt_queue (c : Console) {hw : Handler Hardware σ} {m : σ} :
    c.serialInterrupt.Ensures hw fuel m fun c' _ => ∃ queue, c' = { c with queue } := by
  unfold serialInterrupt
  by_cases hpresent : c.uart.present = true
  · rw [if_pos hpresent]
    refine ensures_iterate (fun d _ => ∃ queue, d = { c with queue }) ⟨c.queue, rfl⟩ ?_
    rintro _ m₁ ⟨queue, rfl⟩
    refine ensures_bind fun byte? m₂ _ => ?_
    cases byte? with
    | none => exact ensures_pure ⟨queue, rfl⟩
    | some byte => exact ensures_pure ⟨_, enqueue_eq _ byte⟩
  · rw [if_neg hpresent]
    exact ensures_pure ⟨c.queue, rfl⟩

/-- Looking at both devices ends exactly if draining the serial port does and the keyboard
    runs dry after that. -/
theorem input_endsIff (c : Console) (m : σ) :
    bus.EndsIff c.input m (∃ c₁ m₁, bus.Gives c.serialInterrupt.unreported m c₁ m₁ ∧
      c.keyboard.RunsDry bus m₁) := by
  -- Once the serial port is drained, the keyboard decides.
  have hrest : ∀ c₁ m₁, bus.Gives c.serialInterrupt.unreported m c₁ m₁ →
      bus.EndsIff c.input m (c.keyboard.RunsDry bus m₁) := by
    intro c₁ m₁ hserial
    have hqueue : ∃ queue, c₁ = { c with queue } := hserial.ensures fun fuel a m₂ hrun =>
      serialInterrupt_queue c a m₂ ((run_silent_unreported fuel _ m).symm.trans hrun)
    rcases hqueue with ⟨queue, rfl⟩
    refine endsIff_after hserial (endsIff_before (keyboardInterrupt_endsIff _ m₁) ?_)
    exact fun _ _ _ => ⟨_, _, 0, [], rfl⟩
  refine ⟨?_, fun hnever => ?_⟩
  · rintro ⟨c₁, m₁, hserial, hdry⟩
    exact (hrest c₁ m₁ hserial).ends hdry
  · by_cases hserial : c.uart.present = true → c.uart.RunsDry bus m
    · rcases (c.serialInterrupt_endsIff m).ends hserial with ⟨c₁, m₁, hgives⟩
      exact (hrest c₁ m₁ hgives).never fun hdry => hnever ⟨c₁, m₁, hgives, hdry⟩
    · exact neverEnds_bind ((c.serialInterrupt_endsIff m).never hserial)

/-- Writing a byte ends. -/
theorem output_ends {c : Console} (h : c.screen.cursor.toNat < Screen.cells) (byte : UInt8)
    (m : σ) : bus.Ends (c.output byte).unreported m := by
  have hreturns : (c.output byte).Returns bus.handler 0 m _ := output_after h byte m
  rcases gives_of_returns hreturns with ⟨c', m', hgives, _⟩
  exact ⟨c', m', hgives⟩

/-- Blanking the screen ends. -/
theorem clearScreen_ends (c : Console) (m : σ) : bus.Ends c.clearScreen.unreported m := by
  have hreturns : c.clearScreen.Returns bus.handler 0 m fun _ _ => True :=
    returns_bind (returns_mono (c.screen.clear_shown m).returns fun _ _ _ => returns_pure trivial)
  rcases gives_of_returns hreturns with ⟨c', m', hgives, _⟩
  exact ⟨c', m', hgives⟩

/-- A serial port that is missing can be reported, as that only writes. -/
theorem serialMissing_ends {c : Console} (h : c.screen.cursor.toNat < Screen.cells) (m : σ) :
    bus.Ends (do
      report .warn "pc_console::console" "serial port does not exist"
      (c.writeText serialMissingText).unreported) m := by
  have hreturns : (c.writeText serialMissingText).Returns bus.handler 0 m _ :=
    writeBytes_after _ h m
  rcases gives_of_returns hreturns with ⟨c', m', hgives, _⟩
  have hreport : bus.Gives (report .warn "pc_console::console" "serial port does not exist") m ()
      m := ⟨0, [], rfl⟩
  exact ⟨c', m', gives_bind hreport hgives⟩

/-- Once the screen is found, bringing up a console ends exactly if the keyboard runs
    dry. -/
theorem init_endsIff (c : Console) (m : σ) : ∃ screen m₁, bus.Gives c.screen.init m screen m₁ ∧
    bus.EndsIff c.init m (c.keyboard.RunsDry bus m₁) := by
  have hfound : c.screen.init.Observes bus 0 m _ := c.screen.init_found m
  rcases gives_of_observes hfound with ⟨screen, _, m₁, hscreen, hcursor, _⟩
  refine ⟨screen, m₁, hscreen, endsIff_after hscreen (endsIff_before
    (keyboardInterrupt_endsIff { c with screen } m₁) fun c₁ m₂ hkeyboard => ?_)⟩
  -- The keyboard left the screen alone, so a missing serial port can be reported on it.
  have hc₁ : c₁.screen.cursor.toNat < Screen.cells := by
    rw [hkeyboard.ensures fun fuel => keyboardInterrupt_screen { c with screen }]
    exact hcursor
  have huart : c₁.uart.init.Returns bus.handler 0 m₂ _ := (c₁.uart.init_traffic m₂).returns
  rcases gives_of_returns huart with ⟨_, m₃, hgives, _, ⟨present, rfl⟩, _⟩
  by_cases hpresent : present = true
  · refine ⟨{ c₁ with uart.present := present }, m₃, gives_bind hgives ?_⟩
    rw [if_pos hpresent]
    exact ⟨0, [], rfl⟩
  · have hmissing : ({ c₁ with uart.present := present } : Console).screen.cursor.toNat <
        Screen.cells := hc₁
    rcases serialMissing_ends hmissing m₃ with ⟨c₂, m₄, hrest⟩
    refine ⟨c₂, m₄, gives_bind hgives ?_⟩
    rw [if_neg hpresent]
    exact hrest

/-- Work leaves the cursor on the screen. -/
theorem Work.onScreen {c c' : Console} {p : LoggedIo Console} (hp : Work c p)
    (h : c.screen.cursor.toNat < Screen.cells) {s s' : (σ × List Event) × List Record}
    (hrun : p.run bus.handler.observed fuel s = .ok (c', s')) :
    c'.screen.cursor.toNat < Screen.cells := by
  suffices hensures : p.Ensures bus.handler.observed fuel s fun c' _ =>
      c'.screen.cursor.toNat < Screen.cells from hensures c' s' hrun
  cases hp with
  | startScreen =>
      exact ensures_bind (ensures_mono c.screen.init_cursor fun _ _ hcursor => ensures_pure hcursor)
  | report level target message => exact ensures_bind fun _ _ _ => ensures_pure h
  | output byte =>
      have hreturns : (c.output byte).Returns bus.recording.handler fuel s.1 _ :=
        output_after h byte s.1
      refine ensures_unreported fun c₁ s₁ hplain => ?_
      rw [hreturns.of_run hplain]
      exact Screen.after_lt h byte
  | setColor foreground background => exact ensures_pure h
  | clearScreen =>
      refine ensures_unreported (ensures_bind fun screen s₁ hclear => ensures_pure ?_)
      have hreturns : c.screen.clear.Returns bus.recording.handler fuel s.1 _ :=
        (c.screen.clear_shown s.1).returns
      rcases hreturns.of_run hclear with ⟨_, rfl, _⟩
      exact show (0 : Nat).toUInt16.toNat < Screen.cells by decide

/-- Nothing that happens to a console takes the cursor off the screen. -/
theorem Step.onScreen {p q : Point σ} {a : Action} (hstep : Step bus.handler fuel p a q)
    (h : p.1.screen.cursor.toNat < Screen.cells) : q.1.screen.cursor.toNat < Screen.cells := by
  cases hstep with
  | @receive c _ _ _ byte? _ _ =>
      cases byte? with
      | none => exact h
      | some byte => exact (congrArg (·.cursor.toNat < Screen.cells) (c.enqueue_screen byte)).mpr h
  | @scan c _ _ event? keyboard _ =>
      cases event? with
      | none => exact h
      | some event =>
          exact (congrArg (·.cursor.toNat < Screen.cells)
            (enqueueEvent_screen { c with keyboard } event)).mpr h
  | take => exact h
  | program _ => exact h
  | work isWork run => exact isWork.onScreen h run

theorem Path.onScreen {p q : Point σ} {as : List Action} (hpath : Path bus.handler fuel p as q)
    (h : p.1.screen.cursor.toNat < Screen.cells) : q.1.screen.cursor.toNat < Screen.cells := by
  induction hpath with
  | nil p => exact h
  | cons hstep _ ih => exact ih (hstep.onScreen h)

/-- However a console was used, its cursor is on the screen. -/
theorem performAll_onScreen {s : Settings} {c₀ c : Console} (hc₀ : ofSettings s = .ok c₀)
    {commands : List Command} {answers : List Answer} {events : List Event} {m₀ m : σ}
    (hrun : bus.observe fuel (c₀.performAll commands) m₀ = .ok ((answers, c), events, m)) :
    c.screen.cursor.toNat < Screen.cells := by
  have hstart : c₀.screen.cursor.toNat < Screen.cells := by
    rcases ofSettings_eq_ok hc₀ with ⟨_, _, _, rfl⟩
    exact show ({} : Screen).cursor.toNat < Screen.cells by decide
  rcases bind_eq_ok.1 hrun with ⟨⟨⟨_, _⟩, s'⟩, hplain, hends⟩
  cases hends
  rcases performAll_path commands c₀ _ _ _ hplain with ⟨as, hpath, _⟩
  exact hpath.onScreen hstart

/-- However a console was used before, and whatever the hardware, writing and blanking the
    screen end. Looking at a device ends exactly if the device runs dry, where a serial port
    that is not marked present counts as dry, and else goes on for ever. Bringing up a
    console drains the keyboard, and taking a byte drains both devices. -/
theorem ends_iff_runs_dry {s : Settings} {c₀ c : Console} (hc₀ : ofSettings s = .ok c₀)
    {commands : List Command} {answers : List Answer} {events : List Event} {m₀ m : σ}
    (hrun : bus.observe fuel (c₀.performAll commands) m₀ = .ok ((answers, c), events, m)) :
    (∀ byte, bus.Ends (c.output byte).unreported m) ∧
    bus.Ends c.clearScreen.unreported m ∧
    bus.EndsIff c.serialInterrupt.unreported m
      (c.uart.present = true → c.uart.RunsDry bus m) ∧
    bus.EndsIff c.keyboardInterrupt m (c.keyboard.RunsDry bus m) ∧
    bus.EndsIff c.input m (∃ c₁ m₁, bus.Gives c.serialInterrupt.unreported m c₁ m₁ ∧
      c.keyboard.RunsDry bus m₁) ∧
    ∃ screen m₁, bus.Gives c.screen.init m screen m₁ ∧
      bus.EndsIff c.init m (c.keyboard.RunsDry bus m₁) :=
  ⟨fun byte => output_ends (performAll_onScreen hc₀ hrun) byte m, c.clearScreen_ends m,
    c.serialInterrupt_endsIff m, c.keyboardInterrupt_endsIff m, c.input_endsIff m,
    c.init_endsIff m⟩

/-- A serial port that answers when it is programmed and is then pulled out, so that its
    registers float. Everything else reads as zero. -/
def unplugged : Bus Bool
  | .readReg (.uart _ .lineStatus), out => (if out then 0xFF else 0x60, out)
  | .readReg (.uart _ .receive), _ => (0, true)
  | .readReg _, out => (0, out)
  | .writeReg _ _, out => ((), out)
  | .readCell _, out => (0, out)
  | .writeCell _ _, out => ((), out)

/-- A console that was brought up before its serial port was pulled out writes and looks at
    the keyboard, but drains the serial port for ever. -/
theorem ends_iff_runs_dry_unplugged :
    ∃ c₀ c answers events m, ofSettings {} = .ok c₀ ∧
      unplugged.observe 1 (c₀.performAll [.init]) false = .ok ((answers, c), events, m) ∧
      (∀ byte, unplugged.Ends (c.output byte).unreported m) ∧
      unplugged.Ends c.keyboardInterrupt m ∧
      unplugged.NeverEnds c.serialInterrupt.unreported m ∧ unplugged.NeverEnds c.input m := by
  have hfound : ((ofSettings {}).bind fun c₀ => .ok
      ((unplugged.observe 1 (c₀.performAll [.init]) false).toOption.map fun v =>
        (v.1.2.uart.present, v.2.2))) = .ok (some (true, true)) := by
    decide +kernel
  rcases bind_eq_ok.1 hfound with ⟨c₀, hc₀, hmap⟩
  rcases Option.map_eq_some_iff.1 (Except.ok.inj hmap) with
    ⟨⟨⟨answers, c⟩, events, m⟩, hsome, hvalue⟩
  obtain ⟨hpresent, rfl⟩ : c.uart.present = true ∧ m = true := Prod.mk.inj hvalue
  have hrun := eq_ok_of_toOption hsome
  obtain ⟨houtput, _, hserial, hkeyboard, hinput, _⟩ := ends_iff_runs_dry hc₀ hrun
  -- Once it is pulled out it stays so, and its status says that a byte waits.
  have hwet : ¬(c.uart.present = true → c.uart.RunsDry unplugged true) := by
    intro hdry
    rcases hdry hpresent with ⟨n, hempty⟩
    rw [Function.iterate_fixed (show c.uart.takeByte unplugged true = true from rfl)] at hempty
    exact absurd hempty (show ¬(0xFF : UInt8) &&& Uart.received = 0 by decide)
  refine ⟨c₀, c, answers, events, true, hc₀, hrun, houtput, hkeyboard.ends ⟨0, ?_⟩,
    hserial.never hwet, hinput.never ?_⟩
  · exact show (0 : UInt8) &&& Keyboard.waiting = 0 by decide
  · rintro ⟨c₁, m₁, ⟨fuel, events, hgives⟩, _⟩
    rw [hserial.never hwet fuel] at hgives
    cases hgives

/-- Hardware that nobody drives: every register floats and reads as all ones. -/
def floating : Bus Unit
  | .readReg _, _ => (0xFF, ())
  | .writeReg _ _, _ => ((), ())
  | .readCell _, _ => (0xFFFF, ())
  | .writeCell _ _, _ => ((), ())

/-- Where there is no keyboard controller, a console for the default settings never comes
    up, and neither a look at the keyboard nor taking a byte ever ends. -/
theorem undriven_bus_drained_for_ever :
    ∃ c, ofSettings {} = .ok c ∧ floating.NeverEnds c.keyboardInterrupt () ∧
      floating.NeverEnds c.init () ∧ floating.NeverEnds c.input () := by
  obtain ⟨c, hc⟩ : ∃ c, ofSettings {} = .ok c := ⟨_, rfl⟩
  have hwet : ∀ m, ¬c.keyboard.RunsDry floating m := by
    rintro m ⟨n, hempty⟩
    exact absurd hempty (show ¬(0xFF : UInt8) &&& Keyboard.waiting = 0 by decide)
  rcases c.init_endsIff () with ⟨_, m₁, _, hinit⟩
  refine ⟨c, hc, (c.keyboardInterrupt_endsIff ()).never (hwet _), hinit.never (hwet _),
    (c.input_endsIff ()).never ?_⟩
  rintro ⟨_, m₂, _, hdry⟩
  exact hwet m₂ hdry

end Console

end KernelConsole
