import KernelConsole.Proofs.Halting
import KernelConsole.Proofs.Kernel.Accounts
import KernelConsole.Proofs.Kernel.Interrupts

/-!
# Waiting for a Lock

Only the console can be waited for, and who waits for it while it is held waits for ever,
as the holder is further out in the same run. So nothing that runs inside an operation may
wait: the interrupts, the loggers and whatever a message runs. The entry points that are
meant for this ask for the locks and go away if they do not get them.

Then nobody ever waits in vain. What runs inside leaves both locks as it found them, so an
operation that is called holds what it has taken, and puts it back; and between two
operations that are called nobody holds anything.

The run is watched for this. A watched kernel stops as it does in a deadlock as soon as an
operation inside another returns with the locks in another state, or one that is called
returns with a lock held. It is the same as the kernel that is not watched.

## Main definitions

* `Kernel.Op.NeverWaits`, `Kernel.Op.NoneWaitsInside`: No operation in it waits for the
  console, itself included or not.
* `Kernel.World.heldLocks`: Which locks are held.
* `Kernel.watchedExec`, `Kernel.World.watchAll`: A watched kernel.
* `Kernel.Restores`: Operations that never wait leave the locks as they find them.

## Theorems

* `Kernel.gentle_proceeds`: Programs that only touch the hardware.
* `Kernel.flushDeferred_proceeds`, `Kernel.withConsole_proceeds`, `Kernel.log_proceeds`: The
  entry points.
* `Kernel.program_proceeds`: Operations.
* `Kernel.restores_watchedExec`: What runs inside, at any depth.
* `Kernel.watchedExec_orDeadlock`: Watching changes nothing but what it stops.
* `Kernel.never_deadlocks`: No run waits for ever.
-/

namespace KernelConsole

namespace Kernel

open Prog

variable {σ α : Type}

mutual

/-- Neither the operation nor one in it waits for the console. -/
def Op.NeverWaits : Op σ → Prop
  | .output _ | .input _ | .getByte | .readLine _ _ | .setColor _ _ | .clearScreen
  | .print _ => False
  | .log _ _ message => message.NeverWaits
  | .arm _ op => op.NeverWaits
  | .init _ | .serialInterrupt | .keyboardInterrupt | .installLogger _ | .setFilter _
  | .logEnabled _ | .flushLog | .flushDeferred | .outside _ => True

/-- No operation in the message waits for the console. -/
def Message.NeverWaits : Message σ → Prop
  | .done => True
  | .text _ rest => rest.NeverWaits
  | .code op _ rest => op.NeverWaits ∧ rest.NeverWaits

end

/-- No operation in it waits for the console. It may itself. -/
def Op.NoneWaitsInside : Op σ → Prop
  | .log _ _ message => message.NeverWaits
  | .arm _ op => op.NeverWaits
  | _ => True

/-- No interrupt to come waits for the console. -/
def World.NeverWaits (w : World σ) : Prop := ∀ i ∈ w.armed, i.op.NeverWaits

/-- Whether the console is held, and whether the backlog is. -/
def World.heldLocks (w : World σ) : Bool × Bool :=
  (w.shared.console.any (!·.isFree), !w.shared.backlog.isFree)

theorem Op.noneWaitsInside {op : Op σ} (h : op.NeverWaits) : op.NoneWaitsInside := by
  cases op with
  | log level target message => exact h
  | arm countdown op => exact h
  | _ => trivial

/-- The locks are held as given, and no interrupt to come waits. -/
structure At (held : Bool × Bool) (w : World σ) : Prop where
  held_eq : w.heldLocks = held
  armed : w.NeverWaits

/-- Operations that never wait run into no deadlock, and leave the locks as they find
    them. -/
def Restores (perform : Op σ → World σ → Except Halt (Result × World σ)) : Prop :=
  ∀ op held w, op.NeverWaits → At held w → Clear (perform op w) fun v => At held v.2

/-- The request touches no lock, and what it runs or arms never waits. -/
def Gentle : (Calls σ).Request → Prop
  | .access _ => True
  | .service r => Idle r
  | .call op => op.NeverWaits
  | .arm _ op => op.NeverWaits
  | .outside _ => True

theorem bare_gentle : ∀ r : (Calls σ).Request, Bare Op.NeverWaits r → Gentle r
  | .service _, h => h.1
  | .arm _ _, h => h
  | .outside _, _ => trivial

section Requests

variable {hw : Handler Hardware σ} {perform : Op σ → World σ → Except Halt (Result × World σ)}
  {held : Bool × Bool} {backlog console : Bool} {w : World σ}

/-- Operations that never wait may be called one after the other. -/
theorem runAll_clear (hrestores : Restores perform) (ops : List (Op σ))
    (hops : ∀ op ∈ ops, op.NeverWaits) (hat : At held w) :
    Clear (runAll perform ops w) (At held) := by
  induction ops generalizing w with
  | nil => exact .ok hat
  | cons op rest ih =>
      refine .bind ((hrestores op held w (hops op List.mem_cons_self) hat).mono fun v hv => ?_)
      exact ih (fun op hop => hops op (List.mem_cons_of_mem _ hop)) hv

/-- Interrupts that never wait may fire, and those still to come never wait either. -/
theorem interrupts_clear (hrestores : Restores perform) (a : Access) (hat : At held w) :
    Clear (interrupts perform a w) (At held) := by
  unfold interrupts
  by_cases hport : a.isPort
  · rw [if_pos hport]
    refine runAll_clear hrestores _ (fun op hop => ?_) ⟨hat.held_eq, fun i hi => ?_⟩
    · rcases List.mem_map.1 hop with ⟨i, hi, rfl⟩
      exact hat.armed i (List.mem_of_mem_filter hi)
    · rcases List.mem_map.1 hi with ⟨j, hj, rfl⟩
      exact hat.armed j (List.mem_of_mem_filter hj)
  · rw [if_neg hport]
    exact .ok hat

/-- A gentle request is answered, and leaves the locks as it found them. -/
theorem gentle_clear (hhw : ∀ a m, hw a m ≠ .error .deadlock) (hrestores : Restores perform) :
    ∀ r : (Calls σ).Request, Gentle r → ∀ w, At held w →
      Clear (respond hw perform r w) fun v => At held v.2 := by
  intro r hr w hat
  cases r with
  | access a =>
      -- The interrupts come first, and then the hardware, which is never in a deadlock.
      refine .bind ((interrupts_clear hrestores a hat).mono fun w₁ hat₁ => ?_)
      exact .bind ⟨hhw a w₁.machine, fun v _ => .ok ⟨hat₁.held_eq, hat₁.armed⟩⟩
  | service r =>
      cases r with
      | isInstalled | hasLogger | installLogger | filter | setFilter _ =>
          exact .ok ⟨hat.held_eq, hat.armed⟩
      | _ => exact absurd hr not_false
  | call op => exact hrestores op held w hr hat
  | arm countdown op =>
      refine .ok ⟨hat.held_eq, fun i hi => ?_⟩
      rcases List.mem_append.1 hi with hold | hnew
      · exact hat.armed i hold
      · rw [List.mem_singleton.1 hnew]
        exact hr
  | outside act => exact .ok ⟨hat.held_eq, hat.armed⟩

/-- Who waits for a console that nobody holds gets it, or there is none. -/
theorem lockConsole_clear (hat : At (false, backlog) w) :
    Clear (respond hw perform (.service .lockConsole) w) fun v =>
      v.1 = none ∧ At (false, backlog) v.2 ∨ ∃ c, v.1 = some c ∧ At (true, backlog) v.2 := by
  rcases w.shared.respond_lockConsole with ⟨_, hreply⟩ | ⟨c, _, hreply⟩ | ⟨hheld, _⟩
  · simp only [respond, hreply]
    exact .ok (.inl ⟨rfl, hat⟩)
  · simp only [respond, hreply]
    exact .ok (.inr ⟨c, rfl, congrArg (true, ·.2) hat.held_eq, hat.armed⟩)
  · -- Nobody holds the console, so this is not the case.
    have hfree := congrArg Prod.fst hat.held_eq
    rw [World.heldLocks, hheld] at hfree
    cases hfree

/-- Who asks for the console gets it only if nobody holds it. -/
theorem tryLockConsole_clear (hat : At (console, backlog) w) :
    Clear (respond hw perform (.service .tryLockConsole) w) fun v =>
      v.1 = none ∧ At (console, backlog) v.2 ∨
        ∃ c, v.1 = some c ∧ console = false ∧ At (true, backlog) v.2 := by
  have hconsole := congrArg Prod.fst hat.held_eq
  have hbacklog := congrArg Prod.snd hat.held_eq
  rcases w.shared.respond_tryLockConsole with ⟨_, hreply⟩ | ⟨c, hfree, hreply⟩
  · simp only [respond, hreply]
    exact .ok (.inl ⟨rfl, hat⟩)
  · simp only [respond, hreply]
    simp only [World.heldLocks, hfree] at hconsole
    exact .ok (.inr ⟨c, rfl, hconsole.symm, congrArg (true, ·) hbacklog, hat.armed⟩)

/-- Who puts the console back leaves it free. -/
theorem unlockConsole_clear (c : Console) (hat : At (true, backlog) w) :
    Clear (respond hw perform (.service (.unlockConsole c)) w) fun v =>
      At (false, backlog) v.2 :=
  .ok ⟨congrArg (false, ·.2) hat.held_eq, hat.armed⟩

/-- Who asks for the backlog gets it only if nobody holds it. -/
theorem tryLockBacklog_clear (hat : At (console, backlog) w) :
    Clear (respond hw perform (.service .tryLockBacklog) w) fun v =>
      v.1 = none ∧ At (console, backlog) v.2 ∨
        ∃ b, v.1 = some b ∧ backlog = false ∧ At (console, true) v.2 := by
  have hconsole := congrArg Prod.fst hat.held_eq
  have hbacklog := congrArg Prod.snd hat.held_eq
  rcases w.shared.respond_tryLockBacklog with ⟨_, hreply⟩ | ⟨b, hfree, hreply⟩
  · simp only [respond, hreply]
    exact .ok (.inl ⟨rfl, hat⟩)
  · simp only [respond, hreply]
    simp only [World.heldLocks, hfree] at hbacklog
    exact .ok (.inr ⟨b, rfl, hbacklog.symm, congrArg (·, true) hconsole, hat.armed⟩)

/-- Who puts the backlog back leaves it free. -/
theorem unlockBacklog_clear (b : Backlog) (hat : At (console, true) w) :
    Clear (respond hw perform (.service (.unlockBacklog b)) w) fun v =>
      At (console, false) v.2 :=
  .ok ⟨congrArg (·.1, false) hat.held_eq, hat.armed⟩

/-- A console is installed where nobody can hold it. -/
theorem install_clear (c : Console) (hat : At held w) :
    Clear (respond hw perform (.service (.install c)) w) fun v => At held v.2 := by
  have hheld := hat.held_eq
  refine .ok ⟨?_, hat.armed⟩
  cases hlock : w.shared.console with
  | none =>
      simp only [World.heldLocks, hlock] at hheld ⊢
      exact hheld
  | some lock =>
      simp only [World.heldLocks, hlock] at hheld ⊢
      exact hheld

end Requests

section Programs

variable {hw : Handler Hardware σ} {perform : Op σ → World σ → Except Halt (Result × World σ)}
  {fuel : Nat} {held : Bool × Bool} {backlog console : Bool} {w : World σ}

/-- What makes such requests alone leaves the locks as they are. -/
theorem gentle_proceeds (hhw : ∀ a m, hw a m ≠ .error .deadlock) (hrestores : Restores perform)
    {p : KernelIo σ α} (hp : p.Only Gentle (· ≠ .deadlock)) (hat : At held w) :
    p.Proceeds (respond hw perform) fuel w fun _ w' => At held w' :=
  hp.proceeds (gentle_clear hhw hrestores) hat

/-- A driver that never waits for a lock leaves the locks as they are. -/
theorem driver_proceeds (hhw : ∀ a m, hw a m ≠ .error .deadlock) (hrestores : Restores perform)
    {P : Reporting.Request → Prop} {p : LoggedIo α} (hp : p.Only P (· ≠ .deadlock))
    (hat : At held w) : p.withLogger.Proceeds (respond hw perform) fuel w fun _ w' => At held w' :=
  gentle_proceeds hhw hrestores (withLogger_only (fun _ => trivial) (fun _ => trivial) hp) hat

theorem lifted_proceeds (hhw : ∀ a m, hw a m ≠ .error .deadlock) (hrestores : Restores perform)
    {P : Access → Prop} {p : Io α} (hp : p.Only P (· ≠ .deadlock)) (hat : At held w) :
    (p.interpret access : KernelIo σ α).Proceeds (respond hw perform) fuel w
      fun _ w' => At held w' := by
  refine gentle_proceeds hhw hrestores (Only.interpret (fun a _ => ?_) hp) hat
  exact Only.call trivial fun v => Only.done v

/-- Whoever holds the console may write out the backlog, if nobody else holds that. -/
theorem flushOnto_proceeds (hhw : ∀ a m, hw a m ≠ .error .deadlock)
    (hrestores : Restores perform) (c : Console) (hat : At (console, backlog) w) :
    (flushOnto c).Proceeds (respond hw perform) fuel w fun _ w' => At (console, backlog) w' := by
  refine proceeds_bind (proceeds_one ((tryLockBacklog_clear hat).mono ?_))
  rintro v (⟨hv, hat₁⟩ | ⟨b, hv, rfl, hat₁⟩)
  · simp only [hv]
    exact proceeds_pure hat₁
  · simp only [hv]
    refine proceeds_bind (proceeds_mono (lifted_proceeds hhw hrestores
      (b.flushInto_only writes_without_deadlock c) hat₁) fun v w₂ hat₂ => ?_)
    refine proceeds_bind (proceeds_one ((unlockBacklog_clear v.1 hat₂).mono fun _ hat₃ => ?_))
    exact proceeds_pure hat₃

/-- A program that uses the console while it is held, and leaves the locks as they are. -/
def UsesGently (hw : Handler Hardware σ) (perform : Op σ → World σ → Except Halt (Result × World σ))
    (fuel : Nat) (use : Console → KernelIo σ α) : Prop :=
  ∀ c held w, At held w → (use c).Proceeds (respond hw perform) fuel w fun _ w' => At held w'

/-- An interrupt handler takes the console if it is free, and puts it back. -/
theorem lookIfFree_proceeds {look : Console → KernelIo σ Console}
    (hlook : UsesGently hw perform fuel look) (hat : At held w) :
    (lookIfFree look).Proceeds (respond hw perform) fuel w fun _ w' => At held w' := by
  rcases held with ⟨console, backlog⟩
  refine proceeds_bind (proceeds_one ((tryLockConsole_clear hat).mono ?_))
  rintro v (⟨hv, hat₁⟩ | ⟨c, hv, rfl, hat₁⟩)
  · simp only [hv]
    exact proceeds_pure hat₁
  · simp only [hv]
    refine proceeds_bind (proceeds_mono (hlook c _ _ hat₁) fun c₂ w₂ hat₂ => ?_)
    exact proceeds_one (unlockConsole_clear c₂ hat₂)

theorem flushDeferred_proceeds (hhw : ∀ a m, hw a m ≠ .error .deadlock)
    (hrestores : Restores perform) (hat : At held w) :
    flushDeferred.Proceeds (respond hw perform) fuel w fun _ w' => At held w' :=
  lookIfFree_proceeds (fun c _ _ hat => flushOnto_proceeds hhw hrestores c hat) hat

theorem interrupt_proceeds (hhw : ∀ a m, hw a m ≠ .error .deadlock)
    (hrestores : Restores perform) {look : Console → KernelIo σ Console}
    (hlook : UsesGently hw perform fuel look) (hat : At held w) :
    (interrupt look).Proceeds (respond hw perform) fuel w fun _ w' => At held w' :=
  proceeds_bind (proceeds_mono (lookIfFree_proceeds hlook hat) fun _ _ hat₁ =>
    flushDeferred_proceeds hhw hrestores hat₁)

/-- Who waits for the console and finds nobody holding it does not wait. -/
theorem withConsole_proceeds (hhw : ∀ a m, hw a m ≠ .error .deadlock)
    (hrestores : Restores perform) {use : Console → KernelIo σ (α × Console)}
    (huse : UsesGently hw perform fuel use) (hat : At (false, backlog) w) :
    (withConsole use).Proceeds (respond hw perform) fuel w fun _ w' =>
      At (false, backlog) w' := by
  -- The console is put back before the flush asks for it.
  refine proceeds_bind (proceeds_mono (Q := fun _ w' => At (false, backlog) w') ?_
    fun _ w₁ hat₁ => ?_)
  · refine proceeds_bind (proceeds_one ((lockConsole_clear hat).mono ?_))
    rintro v (⟨hv, hat₁⟩ | ⟨c, hv, hat₁⟩)
    · simp only [hv]
      exact proceeds_pure hat₁
    · simp only [hv]
      refine proceeds_bind (proceeds_mono (huse c _ _ hat₁) fun v₂ w₂ hat₂ => ?_)
      refine proceeds_bind (proceeds_one ((unlockConsole_clear v₂.2 hat₂).mono
        fun _ hat₃ => ?_))
      exact proceeds_pure hat₃
  · exact proceeds_bind (proceeds_mono (flushDeferred_proceeds hhw hrestores hat₁)
      fun _ _ hat₂ => proceeds_pure hat₂)

/-- The pieces of a message in which nothing waits. -/
theorem pieces_gentle : ∀ message : Message σ, message.NeverWaits →
    ∀ piece ∈ message.pieces, piece.Only Gentle (· ≠ .deadlock)
  | .done, _, piece, hmem => absurd hmem List.not_mem_nil
  | .text text rest, h, piece, hmem => by
      rcases List.mem_cons.1 hmem with rfl | hrest
      · exact Only.pure
      · exact pieces_gentle rest h piece hrest
  | .code op render rest, h, piece, hmem => by
      rcases List.mem_cons.1 hmem with rfl | hrest
      · exact Only.bind (Only.one h.1) fun _ => Only.pure
      · exact pieces_gentle rest h.2 piece hrest

/-- Writing a message leaves the locks as they are, if its pieces and the sink do. -/
theorem writePieces_proceeds (hhw : ∀ a m, hw a m ≠ .error .deadlock)
    (hrestores : Restores perform) {τ : Type} {put : τ → String → KernelIo σ τ}
    (hput : ∀ t text w, At held w →
      (put t text).Proceeds (respond hw perform) fuel w fun _ w' => At held w')
    {pieces : Pieces σ}
    (hpieces : ∀ piece ∈ pieces, piece.Only Gentle (· ≠ .deadlock)) {t : τ} (hat : At held w) :
    (writePieces put pieces t).Proceeds (respond hw perform) fuel w fun _ w' => At held w' := by
  induction pieces generalizing t w with
  | nil => exact proceeds_pure hat
  | cons piece rest ih =>
      have hgentle := hpieces piece List.mem_cons_self
      refine proceeds_bind (proceeds_mono (gentle_proceeds hhw hrestores hgentle hat)
        fun text w₁ hat₁ => ?_)
      refine proceeds_bind (proceeds_mono (hput t text w₁ hat₁) fun t₂ w₂ hat₂ => ?_)
      exact ih (fun piece hmem => hpieces piece (List.mem_cons_of_mem _ hmem)) hat₂

theorem writeLine_proceeds (hhw : ∀ a m, hw a m ≠ .error .deadlock)
    (hrestores : Restores perform) {τ : Type} {put : τ → String → KernelIo σ τ}
    (hput : ∀ t text w, At held w →
      (put t text).Proceeds (respond hw perform) fuel w fun _ w' => At held w')
    (level : Level) (target : String) {message : Message σ} (hmessage : message.NeverWaits)
    (t : τ) (hat : At held w) :
    (writePieces put (linePieces level target message.pieces) t).Proceeds (respond hw perform)
      fuel w fun _ w' => At held w' := by
  refine writePieces_proceeds hhw hrestores hput (fun piece hmem => ?_) hat
  rcases List.mem_cons.1 hmem with rfl | hmem
  · exact Only.pure
  · rcases List.mem_append.1 hmem with hmem | hmem
    · exact pieces_gentle message hmessage piece hmem
    · rw [List.mem_singleton.1 hmem]
      exact Only.pure

theorem logEnabled_proceeds (hhw : ∀ a m, hw a m ≠ .error .deadlock)
    (hrestores : Restores perform) (level : Level) (hat : At held w) :
    (logEnabled level).Proceeds (respond hw perform) fuel w fun _ w' => At held w' :=
  gentle_proceeds hhw hrestores ((logEnabled_only level).mono bare_gentle) hat

/-- The logger asks for the console and then for the backlog, and waits for neither. -/
theorem log_proceeds (hhw : ∀ a m, hw a m ≠ .error .deadlock) (hrestores : Restores perform)
    (level : Level) (target : String) {message : Message σ} (hmessage : message.NeverWaits)
    (hat : At held w) :
    (log level target message.pieces).Proceeds (respond hw perform) fuel w
      fun _ w' => At held w' := by
  rcases held with ⟨console, backlog⟩
  refine proceeds_bind (proceeds_mono (logEnabled_proceeds hhw hrestores level hat)
    fun enabled w₁ hat₁ => ?_)
  by_cases henabled : enabled = true
  · rw [if_pos henabled]
    refine proceeds_bind (proceeds_one ((tryLockConsole_clear hat₁).mono ?_))
    rintro v (⟨hv, hat₂⟩ | ⟨c, hv, rfl, hat₂⟩)
    · simp only [hv]
      refine proceeds_bind (proceeds_one ((tryLockBacklog_clear hat₂).mono ?_))
      rintro v₂ (⟨hv₂, hat₃⟩ | ⟨b, hv₂, rfl, hat₃⟩)
      · simp only [hv₂]
        exact proceeds_pure hat₃
      · simp only [hv₂]
        refine proceeds_bind (proceeds_mono (writeLine_proceeds hhw hrestores
          (fun _ _ _ hat => proceeds_pure hat) level target hmessage b hat₃) fun b₄ w₄ hat₄ => ?_)
        exact proceeds_one (unlockBacklog_clear b₄ hat₄)
    · simp only [hv]
      refine proceeds_bind (proceeds_mono (flushOnto_proceeds hhw hrestores c hat₂)
        fun c₃ w₃ hat₃ => ?_)
      -- The text goes to the devices while the console is held.
      have hput : ∀ (c : Console) text w, At (true, backlog) w →
          (putConsole c text).Proceeds (respond hw perform) fuel w
            fun _ w' => At (true, backlog) w' := fun c text w hat =>
        lifted_proceeds hhw hrestores (Console.writeBytes_only writes_without_deadlock _ c) hat
      refine proceeds_bind (proceeds_mono (writeLine_proceeds hhw hrestores hput level target
        hmessage c₃ hat₃) fun c₄ w₄ hat₄ => ?_)
      exact proceeds_one (unlockConsole_clear c₄ hat₄)
  · rw [if_neg henabled]
    exact proceeds_pure hat₁

/-- Bringing up the console waits for nothing. Who has installed one meanwhile is not asked. -/
theorem init_proceeds (hhw : ∀ a m, hw a m ≠ .error .deadlock) (hrestores : Restores perform)
    (settings : Settings) (hat : At held w) :
    (init settings).Proceeds (respond hw perform) fuel w fun _ w' => At held w' := by
  refine proceeds_bind (proceeds_one ((gentle_clear hhw hrestores (.service .isInstalled) trivial
    w hat).mono fun v hat₁ => ?_))
  by_cases hinstalled : v.1 = true
  · rw [if_pos hinstalled]
    exact proceeds_pure hat₁
  · rw [if_neg hinstalled]
    cases Console.ofSettings settings with
    | error fault => exact proceeds_pure hat₁
    | ok c =>
        have hinit : c.init.Only (Reporting.Within fun _ => True) (· ≠ .deadlock) :=
          c.init_only looks_true writes_without_deadlock (fun _ _ _ => trivial) fun _ => trivial
        refine proceeds_bind (proceeds_mono (driver_proceeds hhw hrestores hinit hat₁)
          fun c₂ w₂ hat₂ => ?_)
        refine proceeds_bind (proceeds_one ((install_clear c₂ hat₂).mono fun _ hat₃ => ?_))
        exact proceeds_bind (proceeds_mono (flushDeferred_proceeds hhw hrestores hat₃)
          fun _ _ hat₄ => proceeds_pure hat₄)

/-- Uses of the console one after the other find it free each time. -/
theorem useAll_proceeds (hhw : ∀ a m, hw a m ≠ .error .deadlock) (hrestores : Restores perform)
    (uses : List (Console.Use α)) (hat : At (false, backlog) w) :
    (useAll uses).Proceeds (respond hw perform) fuel w fun _ w' => At (false, backlog) w' := by
  induction uses generalizing w with
  | nil => exact proceeds_pure hat
  | cons use rest ih =>
      -- What is done with the console may log, but does not wait.
      have hgently : UsesGently hw perform fuel use.logged :=
        fun c _ _ hat => driver_proceeds hhw hrestores (use.drive_only c) hat
      refine proceeds_bind (proceeds_mono (withConsole_proceeds hhw hrestores hgently hat)
        fun _ w₁ hat₁ => ?_)
      exact proceeds_bind (proceeds_mono (ih hat₁) fun _ _ hat₂ => proceeds_pure hat₂)

theorem Op.not_neverWaits_of_usage {op : Op σ} {u : Usage} (h : op.usage? = some u) :
    ¬ op.NeverWaits := by
  cases op <;> cases h
  all_goals exact not_false

/-- An operation leaves both locks as it finds them, if nothing in it waits and, unless it
    never waits itself, nobody holds the console. -/
theorem program_proceeds (hhw : ∀ a m, hw a m ≠ .error .deadlock) (hrestores : Restores perform)
    (op : Op σ) (hinside : op.NoneWaitsInside) (hfree : op.NeverWaits ∨ held.1 = false)
    (hat : At held w) :
    op.program.Proceeds (respond hw perform) fuel w fun _ w' => At held w' := by
  cases op.shape with
  | init settings => exact proceeds_map (init_proceeds hhw hrestores settings hat)
  | uses husage =>
      -- Waiting for the console is for operations that find nobody holding it.
      have hconsole := hfree.resolve_left (Op.not_neverWaits_of_usage husage)
      rcases held with ⟨console, backlog⟩
      cases hconsole
      rw [Op.program_of_usage husage]
      exact proceeds_map (useAll_proceeds hhw hrestores _ hat)
  | @looks _ use hlook =>
      have hgently : UsesGently hw perform fuel use.look := fun c _ _ hat =>
        proceeds_map (driver_proceeds hhw hrestores (use.drive_only c) hat)
      rw [Op.program_of_look hlook]
      exact proceeds_bind (proceeds_mono (interrupt_proceeds hhw hrestores hgently hat)
        fun _ _ hat₁ => proceeds_pure hat₁)
  | log level target message =>
      exact proceeds_bind (proceeds_mono (log_proceeds hhw hrestores level target hinside hat)
        fun _ _ hat₁ => proceeds_pure hat₁)
  | flushLog =>
      refine proceeds_bind (proceeds_bind (proceeds_one ((gentle_clear hhw hrestores
        (.service .hasLogger) trivial w hat).mono fun v hat₁ => ?_)))
      by_cases hyes : v.1 = true
      · rw [if_pos hyes]
        exact proceeds_mono (flushDeferred_proceeds hhw hrestores hat₁)
          fun _ _ hat₂ => proceeds_pure hat₂
      · rw [if_neg hyes]
        exact proceeds_pure (proceeds_pure hat₁)
  | flushDeferred =>
      exact proceeds_bind (proceeds_mono (flushDeferred_proceeds hhw hrestores hat)
        fun _ _ hat₁ => proceeds_pure hat₁)
  | lockless hlockless =>
      have hbare : op.program.Only (Bare Op.NeverWaits) (· ≠ .deadlock) := by
        refine lockless_only hlockless fun countdown inside harm => ?_
        subst harm
        exact hinside
      exact gentle_proceeds hhw hrestores (hbare.mono bare_gentle) hat

end Programs

section Watching

variable {hw : Handler Hardware σ} {fuel : Nat}
  {perform perform' : Op σ → World σ → Except Halt (Result × World σ)}

/-- Performs an operation and stops, as in a deadlock, if it returns with the locks in
    another state than it found them in. -/
def watched (perform : Op σ → World σ → Except Halt (Result × World σ)) (op : Op σ)
    (w : World σ) : Except Halt (Result × World σ) :=
  (perform op w).bind fun v =>
    if v.2.heldLocks = w.heldLocks then .ok v else .error .deadlock

/-- Runs kernel code in a world, and watches every operation that runs inside it. -/
def watchedExec (hw : Handler Hardware σ) {α : Type} :
    Nat → KernelIo σ α → World σ → Except Halt (α × World σ)
  | 0, _, _ => .error .outOfFuel
  | fuel + 1, p, w =>
      p.run (respond hw (watched fun op w => watchedExec hw fuel op.program w)) (fuel + 1) w

/-- Performs operations one after the other and watches what runs inside them. Stops, as in
    a deadlock, where a lock is held while no operation runs. -/
def World.watchAll (hw : Handler Hardware σ) (fuel : Nat) :
    List (Op σ) → World σ → Except Halt (List Result × World σ)
  | [], w => if w.heldLocks = (false, false) then .ok ([], w) else .error .deadlock
  | op :: rest, w =>
      if w.heldLocks = (false, false) then
        (watchedExec hw fuel op.program w).bind fun v =>
          (watchAll hw fuel rest v.2).bind fun vs => .ok (v.1 :: vs.1, vs.2)
      else
        .error .deadlock

theorem restores_watched (hrestores : Restores perform) : Restores (watched perform) := by
  intro op held w hop hat
  refine .bind ((hrestores op held w hop hat).mono fun v hat' => ?_)
  rw [if_pos (hat'.held_eq.trans hat.held_eq.symm)]
  exact .ok hat'

theorem restores_watchedExec (hhw : ∀ a m, hw a m ≠ .error .deadlock) (fuel : Nat) :
    Restores fun op w => watchedExec hw fuel op.program w := by
  -- What runs inside has less fuel.
  induction fuel with
  | zero => exact fun _ _ _ _ _ => .error nofun
  | succ fuel ih =>
      intro op held w hop hat
      exact program_proceeds hhw (restores_watched ih) op (op.noneWaitsInside hop) (.inl hop) hat

/-- A kernel that is watched returns, with both locks free. -/
theorem watchAll_clear (hhw : ∀ a m, hw a m ≠ .error .deadlock) (fuel : Nat) (ops : List (Op σ))
    (hops : ∀ op ∈ ops, op.NoneWaitsInside) {w : World σ} (hat : At (false, false) w) :
    Clear (World.watchAll hw fuel ops w) fun v => At (false, false) v.2 := by
  induction ops generalizing w with
  | nil =>
      rw [World.watchAll, if_pos hat.held_eq]
      exact .ok hat
  | cons op rest ih =>
      rw [World.watchAll, if_pos hat.held_eq]
      cases fuel with
      | zero => exact .error nofun
      | succ fuel =>
          -- Each operation is called where nobody holds a lock, so it may wait.
          refine .bind (Clear.mono (program_proceeds hhw
            (restores_watched (restores_watchedExec hhw fuel)) op (hops op List.mem_cons_self)
            (.inr rfl) hat) fun v hat' => ?_)
          refine .bind ((ih (fun op hop => hops op (List.mem_cons_of_mem _ hop)) hat').mono
            fun vs hat'' => ?_)
          exact .ok hat''

/-- Where operations are alike up to a deadlock, so are calls of them one after the other. -/
theorem runAll_orDeadlock (h : ∀ op w, OrDeadlock (perform' op w) (perform op w))
    (ops : List (Op σ)) (w : World σ) :
    OrDeadlock (runAll perform' ops w) (runAll perform ops w) := by
  induction ops generalizing w with
  | nil => exact .refl _
  | cons op rest ih => exact .bind (h op w) fun v => ih v.2

theorem respond_orDeadlock (h : ∀ op w, OrDeadlock (perform' op w) (perform op w))
    (r : (Calls σ).Request) (w : World σ) :
    OrDeadlock (respond hw perform' r w) (respond hw perform r w) := by
  cases r with
  | access a =>
      refine .bind ?_ fun w => .refl _
      unfold interrupts
      by_cases hport : a.isPort
      · rw [if_pos hport, if_pos hport]
        exact runAll_orDeadlock h _ _
      · rw [if_neg hport, if_neg hport]
        exact .refl _
  | call op => exact h op w
  | _ => exact .refl _

/-- Watching changes nothing but what it stops. -/
theorem watchedExec_orDeadlock (fuel : Nat) (p : KernelIo σ α) (w : World σ) :
    OrDeadlock (watchedExec hw fuel p w) (exec hw fuel p w) := by
  induction fuel generalizing α p w with
  | zero => exact .refl _
  | succ fuel ih =>
      refine OrDeadlock.run (respond_orDeadlock fun op w => ?_) p w
      -- What runs inside is watched too, and was either the same or stopped.
      rcases ih op.program w with hsame | hdead
      · simp only [watched, hsame]
        cases exec hw fuel op.program w with
        | error why => exact .refl _
        | ok v =>
            by_cases hheld : v.2.heldLocks = w.heldLocks
            · exact .inl (if_pos hheld)
            · exact .inr (if_neg hheld)
      · exact .inr (by simp only [watched, hdead]; rfl)

theorem watchAll_orDeadlock (fuel : Nat) (ops : List (Op σ)) (w : World σ) :
    OrDeadlock (World.watchAll hw fuel ops w) (World.performAll hw fuel ops w) := by
  induction ops generalizing w with
  | nil =>
      by_cases hheld : w.heldLocks = (false, false)
      · exact .inl (if_pos hheld)
      · exact .inr (if_neg hheld)
  | cons op rest ih =>
      rw [World.watchAll]
      by_cases hheld : w.heldLocks = (false, false)
      · rw [if_pos hheld]
        exact .bind (watchedExec_orDeadlock fuel op.program w) fun v =>
          .bind (ih v.2) fun vs => .refl _
      · rw [if_neg hheld]
        exact .inr rfl

end Watching

/-- Nothing on the shared state is waited for but the console, and that for ever only if it
    is held. -/
theorem respond_error {s : Shared} {r : Service} {why : Halt} (h : s.respond r = .error why) :
    r = .lockConsole ∧ s.console = some .held ∧ why = .deadlock := by
  cases r with
  | lockConsole =>
      rcases s.respond_lockConsole with ⟨_, hreply⟩ | ⟨c, _, hreply⟩ | ⟨hheld, hreply⟩
      all_goals cases hreply.symm.trans h
      exact ⟨rfl, hheld, rfl⟩
  | tryLockConsole =>
      rcases s.respond_tryLockConsole with ⟨_, hreply⟩ | ⟨c, _, hreply⟩
      all_goals cases hreply.symm.trans h
  | tryLockBacklog =>
      rcases s.respond_tryLockBacklog with ⟨_, hreply⟩ | ⟨b, _, hreply⟩
      all_goals cases hreply.symm.trans h
  | _ => cases h

/-- If nothing waits that runs inside an operation, whether an interrupt runs it or a
    message, then on any hardware, however far a run gets and however deep it nests:
    it does not end in a deadlock, which is to wait for a console that is held, and nothing
    else is waited for;
    it is the same if it is watched, so what runs inside leaves both locks as it finds them,
    and nobody holds one where no operation runs;
    and if it returns, both locks are free. -/
theorem never_deadlocks {bus : Bus σ} {ops : List (Op σ)}
    (hops : ∀ op ∈ ops, op.NoneWaitsInside) {w : World σ} (harmed : w.NeverWaits)
    (hfree : w.heldLocks = (false, false)) (fuel : Nat) :
    World.performAll bus.handler fuel ops w ≠ .error .deadlock ∧
      (∀ (s : Shared) (r : Service) (why : Halt), s.respond r = .error why →
        r = .lockConsole ∧ s.console = some .held ∧ why = .deadlock) ∧
      World.watchAll bus.handler fuel ops w = World.performAll bus.handler fuel ops w ∧
      ∀ results w', World.performAll bus.handler fuel ops w = .ok (results, w') →
        w'.heldLocks = (false, false) := by
  have hhw : ∀ a m, bus.handler a m ≠ .error .deadlock := fun _ _ => nofun
  have hclear := watchAll_clear hhw fuel ops hops ⟨hfree, harmed⟩
  -- As the watched run is no deadlock, it was not stopped.
  have hsame : World.watchAll bus.handler fuel ops w = World.performAll bus.handler fuel ops w :=
    (watchAll_orDeadlock fuel ops w).resolve_right hclear.ne_deadlock
  refine ⟨hsame ▸ hclear.ne_deadlock, fun _ _ _ => respond_error, hsame, fun results w' hrun => ?_⟩
  exact (hclear.of_ok (results, w') (hsame.trans hrun)).held_eq

/-- Interrupts that come while the console is brought up, and while it is held. -/
def manyInterrupts : World Bench where
  machine := { received := [0x00, 0x00, 0x61] }
  armed := [⟨6, .init {}⟩, ⟨9, .serialInterrupt⟩,
    ⟨45, .log .info "a" (.code .flushLog (fun _ => "b") .done)⟩]

/-- Code in a message that brings up the console, and an interrupt while a byte is read. -/
def manyCalls : List (Op Bench) :=
  [.installLogger (.upTo .info), .log .info "c" (.code (.init {}) (fun _ => "d") .done),
    .output [0x41], .arm 1 .keyboardInterrupt, .input 1]

theorem never_deadlocks_many_interrupts :
    (∀ op ∈ manyCalls, op.NoneWaitsInside) ∧ manyInterrupts.NeverWaits ∧
    manyInterrupts.heldLocks = (false, false) ∧
    World.performAll Bench.respond.handler 4 manyCalls manyInterrupts ≠ .error .deadlock ∧
    World.watchAll Bench.respond.handler 4 manyCalls manyInterrupts =
      World.performAll Bench.respond.handler 4 manyCalls manyInterrupts ∧
    ∃ results w',
      World.performAll Bench.respond.handler 4 manyCalls manyInterrupts = .ok (results, w') ∧
      w'.fired = 4 ∧ results.getLast? = some (.bytes [some 0x61]) ∧
      w'.heldLocks = (false, false) := by
  have hends : ((World.performAll Bench.respond.handler 4 manyCalls manyInterrupts).toOption.map
      fun v => (v.2.fired, v.1.getLast?)) = some (4, some (.bytes [some 0x61])) := by
    decide +kernel
  rcases Option.map_eq_some_iff.1 hends with ⟨⟨results, w'⟩, hsome, hvalues⟩
  obtain ⟨hfired, hlast⟩ := Prod.mk.inj hvalues
  have hrun := eq_ok_of_toOption hsome
  have hops : ∀ op ∈ manyCalls, op.NoneWaitsInside := by
    intro op hop
    simp only [manyCalls, List.mem_cons, List.not_mem_nil, or_false] at hop
    rcases hop with rfl | rfl | rfl | rfl | rfl
    · trivial
    · exact ⟨trivial, trivial⟩
    all_goals trivial
  have harmed : manyInterrupts.NeverWaits := by
    intro i hi
    simp only [manyInterrupts, List.mem_cons, List.not_mem_nil, or_false] at hi
    rcases hi with rfl | rfl | rfl
    · trivial
    · trivial
    · exact ⟨trivial, trivial⟩
  obtain ⟨hdead, _, hsame, hfree⟩ :=
    @never_deadlocks _ Bench.respond _ hops _ harmed rfl 4
  exact ⟨hops, harmed, rfl, hdead, hsame, results, w', hrun, hfired, hlast, hfree results w' hrun⟩

end Kernel

end KernelConsole
