import KernelConsole.Proofs.Kernel.BringingUp
import KernelConsole.Proofs.Kernel.Interrupts

/-!
# A Single Console

An operation that runs while a console is being brought up finds none. If it brings one
up itself, two consoles drive the devices, and the one that is installed later is dropped
with all it has queued.

As long as that does not happen, a single console drives the devices from the first access
on. It is the one that is installed, and what it queued while it was brought up is still
there when it is.

A run in which it happens is cut short there. So operations are looked at in a kernel that
goes on only as long as it does not, and no step has to ask whether it did.

## Main definitions

* `Kernel.guarded`: A kernel that is cut short where one operation begins to bring up a
  console inside another that does.
* `Kernel.Performs`: Operations that go as they should.
* `Kernel.UsesAlone`: Programs that use a console they hold.

## Theorems

* `Kernel.driver_drove`: A driver with interrupts before its accesses.
* `Kernel.lookIfFree_goes`, `withConsole_goes`, `interrupt_goes`, `log_goes`, `init_goes`:
  The entry points.
* `Kernel.program_goes`, `Kernel.performs_perform`: Operations.
* `Kernel.single_console_iff`: When a single console drives the devices.
-/

namespace KernelConsole

namespace Kernel

open Prog

variable {σ α : Type}

/-- A kernel that is cut short where one operation begins to bring up a console inside
    another that does. -/
def guarded (hw : Handler Hardware σ)
    (perform : Op σ → Journaled σ → Except Halt (Result × Journaled σ)) :
    Handler (Calls σ) (Journaled σ) :=
  (Journaled.respond hw perform).until fun s => overlaps s.2 = true

/-- Operations go as they should, unless one begins to bring up a console inside another
    that does. -/
structure Performs (perform : Op σ → Journaled σ → Except Halt (Result × Journaled σ)) :
    Prop where
  grows : Grows perform
  goes : ∀ op s r s', perform op s = .ok (r, s') → overlaps s'.2 = false → Goes s s'

/-- The request is about neither the console nor its lock. -/
def OffConsole : Service → Prop
  | .tryLockBacklog | .unlockBacklog _ | .hasLogger | .installLogger | .filter
  | .setFilter _ => True
  | _ => False

section Answers

variable {hw : Handler Hardware σ}
  {perform : Op σ → Journaled σ → Except Halt (Result × Journaled σ)} {s s' : Journaled σ}

theorem guarded_eq_ok {r : (Calls σ).Request} {v : Reply r × Journaled σ} :
    guarded hw perform r s = .ok v ↔
      Journaled.respond hw perform r s = .ok v ∧ overlaps v.2.2 = false := by
  rw [guarded, Handler.until_eq_ok, Bool.not_eq_true]

/-- A run in which nothing overlaps is not cut short. -/
theorem run_guarded (hgrows : Grows perform) {fuel : Nat} {p : KernelIo σ α} {s : Journaled σ}
    {v : α × Journaled σ} (hrun : p.run (Journaled.respond hw perform) fuel s = .ok v)
    (hgood : overlaps v.2.2 = false) : p.run (guarded hw perform) fuel s = .ok v :=
  run_until (fun r _ _ hreply => overlaps_mono (respond_grows hgrows r hreply)) p hrun
    (by rw [hgood]; exact Bool.false_ne_true)

/-- While nobody can take the console, operations called one after the other leave the devices
    alone. -/
theorem runAll_quiet (hperform : Performs perform) (ops : List (Op σ)) (hs : Shut s)
    (hrun : Journaled.runAll perform ops s = .ok s') (hgood : overlaps s'.2 = false) :
    Quiet s s' := by
  induction ops generalizing s with
  | nil =>
      cases hrun
      exact .refl _
  | cons op rest ih =>
      rcases bind_eq_ok.1 hrun with ⟨⟨r, t⟩, hfirst, hrest⟩
      -- Nothing overlaps in the end, so nothing did when the first one returned.
      have ht := not_overlaps_of_suffix (runAll_grows hperform.grows rest hrest) hgood
      have hquiet := (hperform.goes op s r t hfirst ht).shut hs
      exact hquiet.trans (ih (hquiet.shut hs) hrest)

theorem interrupts_quiet (hperform : Performs perform) (a : Access) (hs : Shut s)
    (hrun : Journaled.interrupts perform a s = .ok s') (hgood : overlaps s'.2 = false) :
    Quiet s s' := by
  unfold Journaled.interrupts at hrun
  by_cases hport : a.isPort
  · rw [if_pos hport] at hrun
    have htick : Quiet s (s.1.tick.2, s.2) := ⟨⟨List.suffix_rfl, rfl, rfl, rfl⟩, rfl⟩
    exact htick.trans (runAll_quiet hperform _ (htick.shut hs) hrun hgood)
  · rw [if_neg hport] at hrun
    cases hrun
    exact .refl _

/-- While nobody can take the console, the accesses that are made are those of whoever
    uses it. -/
theorem shut_transcribes (hperform : Performs perform) {s₀ : Journaled σ} (hs₀ : Shut s₀) :
    Transcribes (guarded hw perform).logging (Steady s₀) fun s => accesses s.2 where
  access a s v s' hs hreply := by
    obtain ⟨hrespond, hgood⟩ := guarded_eq_ok.1 hreply
    rcases bind_eq_ok.1 hrespond with ⟨t, hinterrupts, hrest⟩
    rcases bind_eq_ok.1 hrest with ⟨⟨reply, m⟩, _, hend⟩
    cases hend
    have ht := not_overlaps_of_suffix (List.suffix_cons _ _) hgood
    have hquiet := interrupts_quiet hperform a (hs.shut hs₀) hinterrupts ht
    refine ⟨hs.trans (hquiet.toSteady.trans ⟨List.suffix_cons _ _, rfl, rfl, rfl⟩), ?_⟩
    exact congrArg (· ++ [Event.of a reply]) hquiet.accesses
  report r s v s' hs hreply := by
    rcases bind_eq_ok.1 hreply with ⟨⟨result, t⟩, hcall, hend⟩
    cases hend
    obtain ⟨hrespond, hgood⟩ := guarded_eq_ok.1 hcall
    have hquiet := (hperform.goes _ s result t hrespond hgood).shut (hs.shut hs₀)
    exact ⟨hs.trans hquiet.toSteady, hquiet.accesses⟩

theorem service_quiet {r : Service} (hr : OffConsole r) {v : r.Reply}
    (hreply : guarded hw perform (.service r) s = .ok (v, s')) : Quiet s s' := by
  have hrespond := (guarded_eq_ok.1 hreply).1
  cases r with
  | tryLockBacklog =>
      rcases tryLockBacklog_reply hrespond with ⟨rfl, _, rfl⟩ | ⟨b, rfl, _, rfl⟩
      all_goals exact quiet_note _ rfl rfl
  | unlockBacklog _ | hasLogger | installLogger | filter | setFilter _ =>
      cases hrespond
      exact quiet_note _ rfl rfl
  | _ => exact absurd hr not_false

/-- Who waits for the console gets it if it is free, and goes away if there is none. -/
theorem lockConsole_guarded {v : Option Console}
    (hreply : guarded hw perform (.service .lockConsole) s = .ok (v, s')) :
    v = none ∧ Quiet s s' ∨ ∃ c, v = some c ∧ s.1.shared.console = some (.free c) ∧
      s' = taken s (.service .lockConsole (some c)) := by
  rcases lockConsole_reply (guarded_eq_ok.1 hreply).1 with ⟨rfl, _, rfl⟩ | hfree
  · exact .inl ⟨rfl, quiet_note (r := .lockConsole) none rfl rfl⟩
  · exact .inr hfree

/-- Who only asks for it gets it if it is free, too. -/
theorem tryLockConsole_guarded {v : Option Console}
    (hreply : guarded hw perform (.service .tryLockConsole) s = .ok (v, s')) :
    v = none ∧ Quiet s s' ∨ ∃ c, v = some c ∧ s.1.shared.console = some (.free c) ∧
      s' = taken s (.service .tryLockConsole (some c)) := by
  rcases tryLockConsole_reply (guarded_eq_ok.1 hreply).1 with ⟨rfl, _, rfl⟩ | hfree
  · exact .inl ⟨rfl, quiet_note (r := .tryLockConsole) none rfl rfl⟩
  · exact .inr hfree

end Answers

section Programs

variable {hw : Handler Hardware σ}
  {perform : Op σ → Journaled σ → Except Halt (Result × Journaled σ)} {fuel : Nat}
  {c : Console} {s : Journaled σ}

/-- A driver that runs while nobody can take the console drives the devices, and nobody
    else does. -/
theorem driver_drove (hperform : Performs perform) {p : LoggedIo α} {g : α → Console}
    (hpath : ∀ t, p.Ensures replaying.observed fuel t fun a t' =>
      ∃ as, Console.Path replaying fuel (c, t) as (g a, t')) (hs : Shut s) :
    p.Ensures (guarded hw perform).logging fuel s fun a s' => Drove c s (g a) s' := by
  refine ensures_mono ((shut_transcribes hperform hs).replays p (.refl s)) fun a s' h => ?_
  obtain ⟨hsteady, es, hes, htold⟩ := h
  exact ⟨hsteady, es, hes, Console.accountsFor_of_told hpath htold⟩

/-- The program uses a console that it holds, and nothing else. -/
def UsesAlone (hw : Handler Hardware σ)
    (perform : Op σ → Journaled σ → Except Halt (Result × Journaled σ)) (fuel : Nat)
    (use : Console → KernelIo σ (α × Console)) : Prop :=
  ∀ c s, Shut s → (use c).Ensures (guarded hw perform) fuel s fun v s' =>
    Drove c s v.2 s'

/-- Whoever holds the console drives the devices with it to write out the backlog. -/
theorem flushOnto_drove (hperform : Performs perform) (c : Console) (hs : Shut s) :
    (flushOnto c).Ensures (guarded hw perform) fuel s fun d s' =>
      Drove c s d s' := by
  refine ensures_bind (ensures_call fun v s₁ hreply => ensures_done ?_)
  have hfirst := service_quiet (r := .tryLockBacklog) trivial hreply
  cases v with
  | none => exact ensures_pure (hfirst.drove c)
  | some b =>
      -- Writing out the backlog is a path of the console's, one step for each byte.
      have hpath : ∀ t, (b.flushInto c).unreported.Ensures replaying.observed fuel t fun v t' =>
          ∃ as, Console.Path replaying fuel (c, t) as (v.2, t') := by
        intro t
        rw [b.flushInto_eq c, unreported, interpret_bind]
        exact ensures_bind (ensures_mono (Console.writeBytes_path _ c t)
          fun _ _ h => ensures_pure (h.imp fun _ => And.left))
      refine ensures_bind (ensures_lifted (p := b.flushInto c) (ensures_mono
        (driver_drove hperform hpath (hfirst.shut hs)) fun v s₂ hdrove => ?_))
      refine ensures_bind (ensures_call fun _ s₃ hreply₃ => ensures_done (ensures_pure ?_))
      have hlast := service_quiet (r := .unlockBacklog v.1) trivial hreply₃
      exact ((hfirst.drove c).trans hdrove).trans (hlast.drove v.2)

/-- Looking at the console if nobody holds it. -/
theorem lookIfFree_goes {look : Console → KernelIo σ Console}
    (hlook : ∀ c s, Shut s → (look c).Ensures (guarded hw perform) fuel s fun d s' =>
      Drove c s d s') :
    (lookIfFree look).Ensures (guarded hw perform) fuel s fun _ s' => Goes s s' := by
  refine ensures_bind (ensures_call fun v s₁ hreply => ensures_done ?_)
  rcases tryLockConsole_guarded hreply with ⟨rfl, hquiet⟩ | ⟨c, rfl, hfree, rfl⟩
  · exact ensures_pure hquiet.goes
  · refine ensures_bind (ensures_mono (hlook c _ (.inl rfl)) fun d s₂ hdrove => ?_)
    refine ensures_call fun _ s₃ hreply₃ => ensures_done ?_
    cases (guarded_eq_ok.1 hreply₃).1
    exact goes_putBack _ hfree rfl hdrove

theorem flushDeferred_goes (hperform : Performs perform) :
    flushDeferred.Ensures (guarded hw perform) fuel s fun _ s' => Goes s s' :=
  lookIfFree_goes fun c _ hs => flushOnto_drove hperform c hs

theorem withConsole_goes (hperform : Performs perform)
    {use : Console → KernelIo σ (α × Console)} (huse : UsesAlone hw perform fuel use) :
    (withConsole use).Ensures (guarded hw perform) fuel s fun _ s' => Goes s s' := by
  refine ensures_bind (ensures_mono (Q := fun _ s' => Goes s s') ?_ fun result s₁ hfirst => ?_)
  · refine ensures_bind (ensures_call fun v s₁ hreply => ensures_done ?_)
    rcases lockConsole_guarded hreply with ⟨rfl, hquiet⟩ | ⟨c, rfl, hfree, rfl⟩
    · exact ensures_pure hquiet.goes
    · refine ensures_bind (ensures_mono (huse c _ (.inl rfl)) fun v s₂ hdrove => ?_)
      refine ensures_bind (ensures_call fun _ s₃ hreply₃ => ensures_done (ensures_pure ?_))
      cases (guarded_eq_ok.1 hreply₃).1
      exact goes_putBack _ hfree rfl hdrove
  · exact ensures_bind (ensures_mono (flushDeferred_goes hperform)
      fun _ s₂ hflush => ensures_pure (hfirst.trans hflush))

theorem interrupt_goes (hperform : Performs perform) {look : Console → KernelIo σ Console}
    (hlook : ∀ c s, Shut s → (look c).Ensures (guarded hw perform) fuel s fun d s' =>
      Drove c s d s') :
    (interrupt look).Ensures (guarded hw perform) fuel s fun _ s' => Goes s s' :=
  ensures_bind (ensures_mono (lookIfFree_goes hlook) fun _ _ hfirst =>
    ensures_mono (flushDeferred_goes hperform) fun _ _ hflush => hfirst.trans hflush)

/-- The line of a record is written to a console that is held. What its message runs does
    nothing to it. -/
theorem writeLine_drove (hperform : Performs perform) (call : LogCall σ) (c : Console)
    (hs : Shut s) :
    (writePieces putConsole (linePieces call.level call.target call.message.pieces) c).Ensures
      (guarded hw perform) fuel s fun d s' => Drove c s d s' := by
  refine ensures_mono (writeLine_ensures (R := fun _ d t => Drove c s d t)
    (P := fun _ => True) ?_ ?_ call call.message.each_true (.refl c s)) fun _ _ ⟨_, _, h⟩ => h
  · intro _ d t piece hdrove
    refine ensures_lifted (p := d.writeText piece) (ensures_mono (driver_drove (g := id) hperform
      (fun u => ensures_mono (Console.writeBytes_path (utf8 piece) d u)
        fun _ _ h => h.imp fun _ => And.left) (hdrove.shut hs)) fun _ _ h => ?_)
    exact hdrove.trans h
  · intro op _ _ d t v t' hdrove hreply
    obtain ⟨hrespond, hgood⟩ := guarded_eq_ok.1 hreply
    exact hdrove.trans (((hperform.goes op t v t' hrespond hgood).shut (hdrove.shut hs)).drove d)

theorem log_goes (hperform : Performs perform) (call : LogCall σ) :
    (log call.level call.target call.message.pieces).Ensures (guarded hw perform) fuel s
      fun _ s' => Goes s s' := by
  refine ensures_bind (ensures_bind (ensures_call fun v s₁ hreply => ensures_done ?_))
  refine ensures_bind (ensures_call fun f s₂ hreply₂ => ensures_done (ensures_pure ?_))
  -- Both questions are only noted.
  have henabled := (service_quiet (r := .hasLogger) trivial hreply).trans
    (service_quiet (r := .filter) trivial hreply₂)
  by_cases hyes : (v && f.admits call.level) = true
  · rw [if_pos hyes]
    refine ensures_mono (Q := fun _ s' => Goes s₂ s') ?_ fun _ _ h => henabled.goes.trans h
    refine ensures_bind (ensures_call fun v s₃ hreply₃ => ensures_done ?_)
    rcases tryLockConsole_guarded hreply₃ with ⟨rfl, hquiet⟩ | ⟨c, rfl, hfree, rfl⟩
    · -- without the console the line goes into the backlog
      refine ensures_bind (ensures_call fun v s₄ hreply₄ => ensures_done ?_)
      have hquiet₄ := hquiet.trans (service_quiet (r := .tryLockBacklog) trivial hreply₄)
      cases v with
      | none => exact ensures_pure hquiet₄.goes
      | some b =>
          refine ensures_bind (ensures_mono (writeLine_ensures (R := fun _ _ t => Goes s₂ t)
            (P := fun _ => True) (fun _ _ _ _ hgoes => ensures_pure hgoes) ?_ call
            call.message.each_true hquiet₄.goes) fun b' s₅ ⟨_, _, hgoes⟩ => ?_)
          · intro op _ _ _ t v t' hgoes hreply
            obtain ⟨hrespond, hgood⟩ := guarded_eq_ok.1 hreply
            exact hgoes.trans (hperform.goes op t v t' hrespond hgood)
          · refine ensures_call fun _ s₆ hreply₆ => ensures_done ?_
            exact hgoes.trans (service_quiet (r := .unlockBacklog b') trivial hreply₆).goes
    · refine ensures_bind (ensures_mono (flushOnto_drove hperform c (.inl rfl))
        fun d s₄ hflushed => ?_)
      refine ensures_bind (ensures_mono (writeLine_drove hperform call d
        (hflushed.shut (.inl rfl))) fun e s₅ hwritten => ?_)
      refine ensures_call fun _ s₆ hreply₆ => ensures_done ?_
      cases (guarded_eq_ok.1 hreply₆).1
      exact goes_putBack _ hfree rfl (hflushed.trans hwritten)
  · rw [if_neg hyes]
    exact ensures_pure henabled.goes

/-- Where nobody has begun to bring up a console, the one that an operation brings up is
    the only one. -/
theorem raised_of_unraised {s s' : Journaled σ} {settings : Settings} {c₀ c₁ : Console}
    {rest : List (Op σ × Bool)} {es : List Event} (hs : Unraised s)
    (hsettings : Console.ofSettings settings = .ok c₀)
    (hrunning : running s.2 = (.init settings, false) :: rest)
    (hsteady : Steady (s.1, .service .isInstalled false :: s.2) s')
    (hes : accesses s'.2 = accesses s.2 ++ es)
    (htold : Told (c₀.init.run replaying.observed fuel) es c₁) :
    Raised ((putBack s' c₁).1, .service (.install c₁) () :: s'.2) c₁ ∧
      running (.service (.install c₁) () :: s'.2) = running s.2 := by
  have haccepted : (Op.init settings : Op σ).bringsUp = true := by
    rw [Op.bringsUp, hsettings]
    rfl
  obtain ⟨hasked, hcount, _⟩ := running_found_none hrunning
  have hinstalled := running_installed c₁ (hsteady.running.trans hasked)
  -- No device was accessed before, so all accesses are those of this console.
  rw [hs.accesses, List.nil_append] at hes
  refine ⟨⟨rfl, ?_, ?_, settings, c₀, c₁, s'.2, [], [], fuel, hsettings, rfl,
    (List.append_nil _).symm, ?_, ?_, .refl c₁⟩, hinstalled.trans hrunning.symm⟩
  · change begun s'.2 + 0 = 1
    rw [Nat.add_zero, hsteady.begun, hcount, hs.begun, haccepted]
    rfl
  · have hidle := hs.idle
    rw [raising, hrunning] at hidle
    rw [raising, hinstalled]
    exact hidle
  · rw [hes]
    exact htold
  · rw [hes]
    exact Console.unread_of_init hsettings htold

/-- Bringing up the console. The operation is the one that has just begun. -/
theorem init_goes (hperform : Performs perform) {settings : Settings}
    {rest : List (Op σ × Bool)} (hrunning : running s.2 = (.init settings, false) :: rest) :
    (Kernel.init settings).Ensures (guarded hw perform) fuel s fun _ s' => Goes s s' := by
  refine ensures_bind (ensures_call fun v s₁ hreply => ensures_done ?_)
  obtain ⟨hrespond, hgood⟩ := guarded_eq_ok.1 hreply
  cases hrespond
  obtain ⟨hasked, hcount, hoverlaps⟩ := running_found_none hrunning
  cases hconsole : s.1.shared.console with
  | some lock =>
      have hquiet : Quiet s (s.1, .service .isInstalled true :: s.2) :=
        ⟨⟨List.suffix_cons _ _, rfl, rfl, rfl⟩, rfl⟩
      exact ensures_pure hquiet.goes
  | none =>
      simp only [hconsole, Option.isSome_none] at hgood ⊢
      cases hsettings : Console.ofSettings settings with
      | error fault =>
          -- refused before anything happens
          have hrefused : (Op.init settings : Op σ).bringsUp = false := by
            rw [Op.bringsUp, hsettings]
            rfl
          rw [hrefused] at hasked hcount
          have hquiet : Quiet s (s.1, .service .isInstalled false :: s.2) :=
            ⟨⟨List.suffix_cons _ _, rfl, hasked.trans hrunning.symm, hcount⟩, rfl⟩
          exact ensures_pure hquiet.goes
      | ok c₀ =>
          have haccepted : (Op.init settings : Op σ).bringsUp = true := by
            rw [Op.bringsUp, hsettings]
            rfl
          -- Otherwise the run would have been cut short here.
          have hothers : rest.any Prod.snd = false := by
            rw [hoverlaps, haccepted, Bool.true_and, Bool.or_eq_false_iff] at hgood
            exact hgood.2
          have hshut : Shut (s.1, .service .isInstalled false :: s.2) := by
            refine .inr ⟨hconsole, ?_⟩
            rw [raising, hasked, haccepted]
            rfl
          refine ensures_bind (ensures_withLogger (ensures_mono
            ((shut_transcribes hperform hshut).replays c₀.init (.refl _))
            fun c₁ s₂ htold => ?_))
          obtain ⟨hsteady, es, hes, htold⟩ := htold
          refine ensures_bind (ensures_call fun _ s₃ hreply₃ => ensures_done ?_)
          cases install_none (hsteady.console.trans hconsole) (guarded_eq_ok.1 hreply₃).1
          have hinstall : Goes s ((putBack s₂ c₁).1, .service (.install c₁) () :: s₂.2) := by
            refine ⟨?_, fun hs => ?_, fun hs => ?_⟩
            · exact ((List.suffix_cons _ _).trans hsteady.grows).trans (List.suffix_cons _ _)
            · -- If somebody else is bringing up a console, it is not the only one.
              rcases hs with hheld | ⟨_, hraising⟩
              · cases hconsole.symm.trans hheld
              · rw [raising, hrunning, List.any_cons, hothers] at hraising
                cases hraising
            · rcases hs with hunraised | ⟨c, hraised⟩
              · obtain ⟨hraised, hsame⟩ :=
                  raised_of_unraised hunraised hsettings hrunning hsteady hes htold
                exact ⟨.inr ⟨c₁, hraised⟩, hsame⟩
              · cases hconsole.symm.trans hraised.console
          exact ensures_bind (ensures_mono (flushDeferred_goes hperform)
            fun _ _ hflush => ensures_pure (hinstall.trans hflush))

/-- A use of the console while nobody else can take it. -/
theorem logged_alone (hperform : Performs perform) (use : Console.Use α) :
    UsesAlone hw perform fuel use.logged := fun c _ hs =>
  ensures_withLogger (driver_drove hperform (use.drive_path c) hs)

/-- Requests that ask for no lock say nothing of a console. -/
theorem bare_goes {A : Op σ → Prop} {s₀ : Journaled σ} :
    ∀ r : (Calls σ).Request, Bare A r → ∀ s, Goes s₀ s → ∀ v s',
      guarded hw perform r s = .ok (v, s') → Goes s₀ s' := by
  intro r hr s hs v s' hreply
  cases r with
  | access a => exact absurd hr not_false
  | call op => exact absurd hr not_false
  | service r =>
      have hoff : OffConsole r := by
        cases r <;> first | exact trivial | exact absurd rfl hr.2 | exact absurd hr.1 not_false
      exact hs.trans (service_quiet hoff hreply).goes
  | arm countdown op =>
      cases (guarded_eq_ok.1 hreply).1
      exact hs.trans (Quiet.goes ⟨⟨List.suffix_rfl, rfl, rfl, rfl⟩, rfl⟩)
  | outside act =>
      cases (guarded_eq_ok.1 hreply).1
      exact hs.trans (Quiet.goes ⟨⟨List.suffix_rfl, rfl, rfl, rfl⟩, rfl⟩)

/-- Operations, once they have begun. -/
theorem program_goes (hperform : Performs perform) (op : Op σ) {rest : List (Op σ × Bool)}
    (hrunning : running s.2 = (op, false) :: rest) :
    op.program.Ensures (guarded hw perform) fuel s fun _ s' => Goes s s' := by
  cases op.shape with
  | init settings => exact ensures_map (init_goes hperform hrunning)
  | uses husage =>
      rw [Op.program_of_usage husage]
      refine ensures_map (ensures_useAll (K := Goes s) (fun use _ t ht => ?_) (.refl s))
      exact ensures_mono (withConsole_goes hperform (logged_alone hperform use))
        fun _ _ h => ht.trans h
  | looks hlook =>
      rw [Op.program_of_look hlook]
      exact ensures_bind (ensures_mono (interrupt_goes hperform fun c t ht =>
        ensures_map (logged_alone hperform _ c t ht)) fun _ _ h => ensures_pure h)
  | log level target message =>
      exact ensures_bind (ensures_mono (log_goes hperform ⟨level, target, message⟩)
        fun _ _ h => ensures_pure h)
  | flushLog =>
      have hask : ∀ v s₁, guarded hw perform (.service .hasLogger) s = .ok (v, s₁) → Goes s s₁ :=
        fun v s₁ hreply => (service_quiet (r := .hasLogger) trivial hreply).goes
      exact ensures_flushLog (fun s₁ hreply => ensures_mono (flushDeferred_goes hperform)
        fun _ _ h => (hask true s₁ hreply).trans h) (hask false)
  | flushDeferred =>
      exact ensures_bind (ensures_mono (flushDeferred_goes hperform) fun _ _ h => ensures_pure h)
  | lockless hlockless =>
      have hbare : op.program.Only (Bare fun _ => True) :=
        lockless_only hlockless fun _ _ _ => trivial
      exact hbare.ensures bare_goes (.refl s)

end Programs

/-- Every operation goes as it should, however deep others run in it. -/
theorem performs_perform (hw : Handler Hardware σ) (fuel : Nat) :
    Performs (Journaled.perform hw fuel) := by
  -- What runs inside has less fuel.
  induction fuel with
  | zero => exact ⟨grows_perform hw 0, fun _ _ _ _ hrun => nomatch hrun⟩
  | succ fuel ih =>
      refine ⟨grows_perform hw _, fun op s r s' hrun hgood => ?_⟩
      rcases bind_eq_ok.1 hrun with ⟨⟨v, t⟩, hprogram, hend⟩
      cases hend
      -- Returning is only noted, so nothing had overlapped before it.
      have ht := not_overlaps_of_suffix (List.suffix_cons _ _) hgood
      have hgoes := program_goes ih op rfl v t (run_guarded ih.grows hprogram ht)
      exact hgoes.enclosed v

theorem performAll_resting {hw : Handler Hardware σ} {fuel : Nat} (ops : List (Op σ))
    {s s' : Journaled σ} {results : List Result} (hs : Resting s)
    (hrun : Journaled.performAll hw fuel ops s = .ok (results, s'))
    (hgood : overlaps s'.2 = false) : Resting s' := by
  induction ops generalizing s results with
  | nil =>
      cases hrun
      exact hs
  | cons op rest ih =>
      rcases bind_eq_ok.1 hrun with ⟨⟨r, t⟩, hfirst, hothers⟩
      rcases bind_eq_ok.1 hothers with ⟨⟨rs, u⟩, hrest, hend⟩
      cases hend
      have ht := not_overlaps_of_suffix (performAll_grows hw fuel rest hrest) hgood
      have hgoes := (performs_perform hw fuel).goes op s r t hfirst ht
      exact ih (hgoes.resting hs).1 hrest

/-- There is no console and no device was accessed, or all accesses are those of the one
    console that is installed. -/
def Alone (journal : List (Moment σ)) (console : Option (Lock Console)) : Prop :=
  console = none ∧ accesses journal = [] ∨ ∃ c, console = some (.free c) ∧ Driven journal c

/-- Whatever is called and whatever interrupts, at most one operation brings up a console,
    and that console alone drives the devices, is the one that is installed and keeps what
    it queued, if and only if no operation that brings up a console begins while another is
    bringing up one. -/
theorem single_console_iff (hw : Handler Hardware σ) (fuel : Nat) {ops : List (Op σ)}
    {w w' : World σ} {results : List Result} {journal : List (Moment σ)}
    (hnone : w.shared.console = none)
    (hrun : Journaled.performAll hw fuel ops (w, []) = .ok (results, w', journal)) :
    begun journal ≤ 1 ∧ Alone journal w'.shared.console ↔ overlaps journal = false := by
  constructor
  · rintro ⟨hle, _⟩
    cases hoverlaps : overlaps journal with
    | false => rfl
    -- Then two have begun, and that is more than one.
    | true => exact absurd (begun_of_overlaps hoverlaps) (by omega)
  · intro hgood
    have hstart : Resting ((w, []) : Journaled σ) := .inl ⟨hnone, rfl, rfl, rfl⟩
    rcases performAll_resting ops hstart hrun hgood with hunraised | ⟨c, hraised⟩
    · exact ⟨hunraised.begun.trans_le (Nat.zero_le 1),
        .inl ⟨hunraised.console, hunraised.accesses⟩⟩
    · exact ⟨hraised.begun.le, .inr ⟨c, hraised.console, hraised.driven⟩⟩

/-- A key waits. A device interrupt comes while the console is brought up, and two that
    would bring up another come when it is there. -/
def keyWaiting : World Bench where
  machine := { scancodes := [0x1E] }
  armed := [⟨3, .serialInterrupt⟩, ⟨25, .init {}⟩]

def readsKey : List (Op Bench) := [.init {}, .arm 1 (.init {}), .output [0x41], .input 1]

theorem single_console_iff_key_waiting :
    keyWaiting.shared.console = none ∧ ∃ w' journal,
      Journaled.performAll Bench.respond.handler 4 readsKey (keyWaiting, []) =
        .ok ([.settled (.ok ()), .nothing, .nothing, .bytes [some 0x61]], w', journal) ∧
      w'.fired = 3 ∧ overlaps journal = false ∧
      begun journal ≤ 1 ∧ Alone journal w'.shared.console := by
  have hends : ((Journaled.performAll Bench.respond.handler 4 readsKey
      (keyWaiting, [])).toOption.map fun v => (v.1, v.2.1.fired, overlaps v.2.2)) =
        some ([.settled (.ok ()), .nothing, .nothing, .bytes [some 0x61]], 3, false) := by
    decide +kernel
  rcases Option.map_eq_some_iff.1 hends with ⟨⟨results, w', journal⟩, hsome, hvalues⟩
  have hrun := eq_ok_of_toOption hsome
  simp only [Prod.mk.injEq] at hvalues
  obtain ⟨rfl, hfired, hgood⟩ := hvalues
  exact ⟨rfl, w', journal, hrun, hfired, hgood,
    (single_console_iff Bench.respond.handler 4 rfl hrun).2 hgood⟩

/-- The same key, and an interrupt that brings up a console when the one that is being
    brought up has read it. -/
def keyTaken : World Bench where
  machine := { scancodes := [0x1E] }
  armed := [⟨8, .init {}⟩]

/-- Two consoles drive the devices. The one that has the key in its queue is installed
    too late and dropped, so nobody ever gets the byte. Without the interrupt it is there. -/
theorem second_console_dropped :
    (∃ w' journal,
      Journaled.performAll Bench.respond.handler 4 [.init {}, .input 1] (keyTaken, []) =
        .ok ([.settled (.ok ()), .bytes [none]], w', journal) ∧
      w'.fired = 1 ∧ begun journal = 2 ∧ ¬begun journal ≤ 1 ∧
      keysIn (accesses journal).reverse = [0x61]) ∧
    ∃ w', World.performAll Bench.respond.handler 4 [.init {}, .input 1]
      { keyTaken with armed := [] } = .ok ([.settled (.ok ()), .bytes [some 0x61]], w') := by
  have hends : ((Journaled.performAll Bench.respond.handler 4 [.init {}, .input 1]
      (keyTaken, [])).toOption.map fun v => (v.1, v.2.1.fired, begun v.2.2,
        keysIn (accesses v.2.2).reverse)) =
          some ([.settled (.ok ()), .bytes [none]], 1, 2, [0x61]) := by
    decide +kernel
  have hundisturbed : ((World.performAll Bench.respond.handler 4 [.init {}, .input 1]
      { keyTaken with armed := [] }).toOption.map Prod.fst) =
        some [.settled (.ok ()), .bytes [some 0x61]] := by
    decide +kernel
  constructor
  · rcases Option.map_eq_some_iff.1 hends with ⟨⟨results, w', journal⟩, hsome, hvalues⟩
    simp only [Prod.mk.injEq] at hvalues
    obtain ⟨rfl, hfired, htwo, hqueued⟩ := hvalues
    exact ⟨w', journal, eq_ok_of_toOption hsome, hfired, htwo, by omega, hqueued⟩
  · rcases Option.map_eq_some_iff.1 hundisturbed with ⟨⟨results, w'⟩, hsome, hvalues⟩
    cases hvalues
    exact ⟨w', eq_ok_of_toOption hsome⟩

end Kernel

end KernelConsole
