import KernelConsole.Proofs.Kernel.Accounts

/-!
# Between Turns

Operations are called one after the other, and each has its turn. What runs in a
turn is up to the operation, the interrupts that come and the code in messages, but
all of it is over when the operation returns. So nobody holds the console between
two turns, and nobody holds the backlog.

The first is no matter of bookkeeping. Whoever takes the console puts it back last,
and whatever else happens meanwhile takes it and puts it back too, or finds it held.
The second is read off the accounts: a line that goes in, and a backlog that is
written out, leave the lock as they found it.

An operation that does not return ends the run, and has no turn.

## Main definitions

* `Kernel.Turn`: An operation that was performed.
* `Kernel.Journaled.turns`: The turns of a run.
* `Kernel.Unheld`: Nobody holds the console.
* `Kernel.Ready`: Nobody holds the backlog.

## Theorems

* `Kernel.turns_keep`: What every turn keeps holds before and after each.
* `Kernel.unheld_perform`: Operations put the console back.
* `Kernel.Accounted.ready`: The backlog is put back.
-/

namespace KernelConsole

namespace Kernel

open Prog

variable {σ α : Type}

/-- An operation that was performed, with what it returned and the moments before
    and after. -/
structure Turn (σ : Type) where
  /-- The operation. -/
  op : Op σ
  /-- The moment before. -/
  before : Journaled σ
  /-- What it returned. -/
  result : Result
  /-- The moment after. -/
  after : Journaled σ

/-- The turn is one of a run on the hardware `hw`. -/
def Turn.Runs (hw : Handler Hardware σ) (fuel : Nat) (x : Turn σ) : Prop :=
  Journaled.perform hw fuel x.op x.before = .ok (x.result, x.after)

/-- The turns of operations that are called one after the other, up to the first that
    does not return. -/
def Journaled.turns (hw : Handler Hardware σ) (fuel : Nat) :
    List (Op σ) → Journaled σ → List (Turn σ)
  | [], _ => []
  | op :: rest, s => match Journaled.perform hw fuel op s with
    | .error _ => []
    | .ok (result, after) => ⟨op, s, result, after⟩ :: turns hw fuel rest after

section Runs

variable {hw : Handler Hardware σ} {fuel : Nat}

/-- A turn is one of the operations', and what every turn keeps holds before and after
    each. -/
theorem turns_keep {K : Journaled σ → Prop} {P : Turn σ → Prop}
    (hstep : ∀ x : Turn σ, x.Runs hw fuel → P x → K x.before → K x.after)
    (ops : List (Op σ)) {s : Journaled σ} (hs : K s)
    (hP : ∀ x ∈ Journaled.turns hw fuel ops s, P x) :
    ∀ x ∈ Journaled.turns hw fuel ops s,
      x.op ∈ ops ∧ x.Runs hw fuel ∧ K x.before ∧ K x.after := by
  induction ops generalizing s with
  | nil =>
      intro x hx
      exact absurd hx List.not_mem_nil
  | cons op rest ih =>
      intro x hx
      unfold Journaled.turns at hP hx
      cases hrun : Journaled.perform hw fuel op s with
      | error why =>
          -- An operation that does not return has no turn, and none comes after it.
          simp only [hrun] at hx
          exact absurd hx List.not_mem_nil
      | ok v =>
          simp only [hrun] at hP hx
          have hfirst : K v.2 := hstep ⟨op, s, v.1, v.2⟩ hrun (hP _ List.mem_cons_self) hs
          rcases List.mem_cons.1 hx with rfl | hlater
          · exact ⟨List.mem_cons_self, hrun, hs, hfirst⟩
          · -- The turns to come start from where this one ended.
            have hrest := ih hfirst (fun y hy => hP y (List.mem_cons_of_mem _ hy)) x hlater
            exact ⟨List.mem_cons_of_mem _ hrest.1, hrest.2⟩

end Runs

/-- Nobody holds the console. -/
def Unheld (w : World σ) : Prop := w.shared.console ≠ some .held

/-- A console that lies free is held by nobody. -/
theorem unheld_free {w : World σ} {c : Console} (hfree : w.shared.console = some (.free c)) :
    Unheld w := by
  intro hheld
  rw [hfree] at hheld
  cases hheld

/-- If nobody holds the console, it was never installed or it lies free. -/
theorem Unheld.none_or_free {w : World σ} (h : Unheld w) :
    w.shared.console = none ∨ ∃ c, w.shared.console = some (.free c) := by
  cases hconsole : w.shared.console with
  | none => exact .inl rfl
  | some lock =>
      cases lock with
      | free c => exact .inr ⟨c, rfl⟩
      | held => exact absurd hconsole h

/-- A request that does not ask for the console. -/
def Spares : (Calls σ).Request → Prop
  | .service .lockConsole => False
  | .service .tryLockConsole => False
  | _ => True

/-- Operations that find the console put back put it back. -/
def PutsBack (perform : Op σ → Journaled σ → Except Halt (Result × Journaled σ)) : Prop :=
  ∀ op s r s', Unheld s.1 → perform op s = .ok (r, s') → Unheld s'.1

section Programs

variable {hw : Handler Hardware σ}
  {perform : Op σ → Journaled σ → Except Halt (Result × Journaled σ)} {fuel : Nat}

/-- Operations called one after the other put the console back if each of them does. -/
theorem runAll_unheld (hputs : PutsBack perform) (ops : List (Op σ)) {s s' : Journaled σ}
    (hs : Unheld s.1) (hrun : Journaled.runAll perform ops s = .ok s') : Unheld s'.1 := by
  induction ops generalizing s with
  | nil =>
      cases hrun
      exact hs
  | cons op rest ih =>
      rcases bind_eq_ok.1 hrun with ⟨⟨r, t⟩, hfirst, hrest⟩
      -- The next operation finds the console put back by this one.
      have ht : Unheld t.1 := hputs op s r t hs hfirst
      exact ih ht hrest

theorem interrupts_unheld (hputs : PutsBack perform) (a : Access) {s s' : Journaled σ}
    (hs : Unheld s.1) (hrun : Journaled.interrupts perform a s = .ok s') : Unheld s'.1 := by
  unfold Journaled.interrupts at hrun
  by_cases hport : a.isPort
  · rw [if_pos hport] at hrun
    have htick : Unheld s.1.tick.2 := hs
    exact runAll_unheld (s := (s.1.tick.2, s.2)) hputs _ htick hrun
  · rw [if_neg hport] at hrun
    cases hrun
    exact hs

/-- A request that does not ask for the console leaves nobody holding it. -/
theorem spares_unheld (hputs : PutsBack perform) :
    ∀ r : (Calls σ).Request, Spares r → ∀ s, Unheld s.1 → ∀ v s',
      Journaled.respond hw perform r s = .ok (v, s') → Unheld s'.1 := by
  intro r hr s hs v s' hreply
  cases r with
  | access a =>
      -- The interrupts come first, and then only the machine changes.
      rcases bind_eq_ok.1 hreply with ⟨t, hinterrupts, hrest⟩
      rcases bind_eq_ok.1 hrest with ⟨⟨reply, m⟩, _, hend⟩
      cases hend
      have ht : Unheld t.1 := interrupts_unheld hputs a hs hinterrupts
      exact ht
  | service r =>
      cases r with
      | lockConsole => exact absurd hr not_false
      | tryLockConsole => exact absurd hr not_false
      | install c =>
          cases hreply
          -- The console is installed where nobody can hold it, or stays as it is.
          cases hconsole : s.1.shared.console with
          | none => exact unheld_free rfl
          | some lock => exact hs
      | tryLockBacklog =>
          rcases tryLockBacklog_reply hreply with ⟨_, _, rfl⟩ | ⟨_, _, _, rfl⟩
          all_goals exact hs
      | unlockConsole c =>
          cases hreply
          exact unheld_free rfl
      | isInstalled | unlockBacklog _ | hasLogger | installLogger | filter | setFilter _ =>
          cases hreply
          exact hs
  | call op => exact hputs op s v s' hs hreply
  | arm countdown op =>
      cases hreply
      exact hs
  | outside act =>
      cases hreply
      exact hs

theorem unheld_of_spares (hputs : PutsBack perform) {p : KernelIo σ α} (hp : p.Only Spares)
    {s : Journaled σ} (hs : Unheld s.1) :
    p.Ensures (Journaled.respond hw perform) fuel s fun _ s' => Unheld s'.1 :=
  hp.ensures (K := fun t : Journaled σ => Unheld t.1) (spares_unheld hputs) hs

/-- Whatever ran while the console was held, nobody holds it once it is put back. -/
theorem unlockConsole_unheld (c : Console) (s : Journaled σ) :
    (service (.unlockConsole c)).Ensures (Journaled.respond hw perform) fuel s
      fun _ s' => Unheld s'.1 := by
  refine ensures_call fun _ s' hreply => ensures_done ?_
  cases hreply
  exact unheld_free rfl

end Programs

/-- Nobody holds the backlog. -/
def Ready (l : Lock Backlog) : Prop := ∃ b, l = .free b ∧ b.pending.Bounded

/-- No entry of the journal leaves the backlog held, or with more than fits. -/
theorem Account.ready {l l' : Lock Backlog} {entries : List Entry} (h : Account l entries l')
    (hl : Ready l) : Ready l' := by
  induction h with
  | nil l => exact hl
  | own _ ih => exact ih hl
  | line _ ih => exact ih hl
  | kept _ ih =>
      -- Only this entry adds to the backlog, and what it adds drops what does not fit.
      rcases hl with ⟨b, hb, hbounded⟩
      cases hb
      exact ih ⟨_, rfl, (Ring.contents_pushAll Ring.wideEnough_word hbounded _).1⟩
  | dump _ ih => exact ih ⟨_, rfl, (Ring.contents_drain _).1⟩

theorem Accounted.ready {s s' : Journaled σ} (h : Accounted s s')
    (hs : Ready s.1.shared.backlog) : Ready s'.1.shared.backlog := by
  rcases h with ⟨_, _, haccount⟩
  exact haccount.ready hs

/-- The backlog is there, and nothing is in it. -/
def WrittenOut (w : World σ) : Prop :=
  ∃ b, w.shared.backlog = .free b ∧ b.isEmpty = true

/-- Nothing is left in the backlog that could be written out. -/
def Tidy (w : World σ) : Prop := installed w = true → WrittenOut w

theorem tidy_none {w : World σ} (hnone : w.shared.console = none) : Tidy w := by
  intro hinstalled
  rw [installed, hnone] at hinstalled
  cases hinstalled

theorem ready_emptied {l : Lock Backlog} (hl : Ready l) : Ready (emptied l) := by
  rcases hl with ⟨b, rfl, _⟩
  exact ⟨_, rfl, (Ring.contents_drain b.pending).1⟩

theorem writtenOut_emptied {w : World σ} {l : Lock Backlog} (hl : Ready l)
    (hw : w.shared.backlog = emptied l) : WrittenOut w := by
  rcases hl with ⟨b, rfl, _⟩
  exact ⟨_, hw, (Ring.isEmpty_iff _).2 (Ring.contents_drain b.pending).2⟩

/-- From one moment to another the console was put back, and the backlog was written
    out if nobody outside held it. -/
structure Flushed (s s' : Journaled σ) : Prop where
  /-- Nobody holds the console. -/
  unheld : Unheld s'.1
  /-- No log call is looking for a sink. -/
  asking : asking s'.2 = none
  /-- The backlog is put back. -/
  ready : Ready s.1.shared.backlog → Ready s'.1.shared.backlog
  /-- It was written out. -/
  tidy : Ready s.1.shared.backlog → Tidy s'.1

theorem Flushed.trans {s t u : Journaled σ}
    (hst : Ready s.1.shared.backlog → Ready t.1.shared.backlog) (htu : Flushed t u) :
    Flushed s u where
  unheld := htu.unheld
  asking := htu.asking
  ready hs := htu.ready (hst hs)
  tidy hs := htu.tidy (hst hs)

section Programs

variable {hw : Handler Hardware σ}
  {perform : Op σ → Journaled σ → Except Halt (Result × Journaled σ)} {fuel : Nat}

/-- A flush finds no console, or writes out all there is to write. -/
theorem flushDeferred_flushed (hnests : Nests perform) {s : Journaled σ} (hs : Unheld s.1)
    (hasking : asking s.2 = none) :
    flushDeferred.Ensures (Journaled.respond hw perform) fuel s fun _ s' => Flushed s s' := by
  refine ensures_bind (ensures_call fun v s₁ hreply => ensures_done ?_)
  rcases tryLockConsole_reply hreply with ⟨rfl, hnot, rfl⟩ | ⟨c, rfl, _, rfl⟩
  · -- There is no console that the backlog could be written to.
    have hnone : s.1.shared.console = none :=
      hs.none_or_free.resolve_right fun ⟨c, hfree⟩ => hnot c hfree
    have htidy : Tidy s.1 := tidy_none hnone
    exact ensures_pure ⟨hs, hasking, fun hready => hready, fun _ => htidy⟩
  · -- The console is held while the backlog is written out, so no line gets into it.
    refine ensures_bind (ensures_mono (flushOnto_held hnests c rfl rfl)
      fun c₂ s₂ ⟨_, hemptied, _, _⟩ => ?_)
    refine ensures_call fun _ s₃ hreply₃ => ensures_done ?_
    cases hreply₃
    have hbacklog : s₂.1.shared.backlog = emptied s.1.shared.backlog := hemptied
    refine ⟨unheld_free rfl, rfl, fun hready => ?_, fun hready _ => ?_⟩
    · change Ready s₂.1.shared.backlog
      rw [hbacklog]
      exact ready_emptied hready
    · exact writtenOut_emptied hready hbacklog

/-- Whoever takes the console for a use puts it back. -/
theorem holding_unheld {use : Console → KernelIo σ (α × Console)} {s : Journaled σ}
    (hs : Unheld s.1) :
    (holding use).Ensures (Journaled.respond hw perform) fuel s fun _ s' => Unheld s'.1 := by
  refine ensures_bind (ensures_call fun v s₁ hreply => ensures_done ?_)
  rcases lockConsole_reply hreply with ⟨rfl, _, rfl⟩ | ⟨c, rfl, _, rfl⟩
  · exact ensures_pure hs
  · -- What is done with the console is all the same here.
    refine ensures_bind fun v s₂ _ => ?_
    refine ensures_bind (ensures_mono (unlockConsole_unheld v.2 s₂) fun _ s₃ hs₃ => ?_)
    exact ensures_pure hs₃

theorem lookIfFree_unheld {look : Console → KernelIo σ Console} {s : Journaled σ}
    (hs : Unheld s.1) :
    (lookIfFree look).Ensures (Journaled.respond hw perform) fuel s fun _ s' => Unheld s'.1 := by
  refine ensures_bind (ensures_call fun v s₁ hreply => ensures_done ?_)
  rcases tryLockConsole_reply hreply with ⟨rfl, _, rfl⟩ | ⟨c, rfl, _, rfl⟩
  · exact ensures_pure hs
  · exact ensures_bind fun c' s₂ _ => unlockConsole_unheld c' s₂

/-- A use of the console ends with a flush. -/
theorem withConsole_flushed (hnests : Nests perform) (haccounting : Accounting perform)
    {use : Console → KernelIo σ (α × Console)} (huse : ∀ c, (use c).Only Plain)
    {s : Journaled σ} (hs : Unheld s.1) (hasking : asking s.2 = none) :
    (withConsole use).Ensures (Journaled.respond hw perform) fuel s fun _ s' =>
      Flushed s s' := by
  -- What is done with the console may queue log lines, and the flush takes them along.
  have hsettled : (holding use).Ensures (Journaled.respond hw perform) fuel s
      fun _ s' => Settled s s' :=
    settled_of_plain haccounting (holding_plain huse) ⟨.refl s, hasking⟩
  refine ensures_bind (ensures_mono (ensures_and (holding_unheld hs) hsettled)
    fun _ s₁ ⟨hs₁, haccounted, hasking₁⟩ => ?_)
  refine ensures_bind (ensures_mono (flushDeferred_flushed hnests hs₁ hasking₁)
    fun _ s₂ hflush => ensures_pure ?_)
  exact hflush.trans haccounted.ready

theorem interrupt_flushed (hnests : Nests perform) (haccounting : Accounting perform)
    {look : Console → KernelIo σ Console} (hlook : ∀ c, (look c).Only Plain)
    {s : Journaled σ} (hs : Unheld s.1) (hasking : asking s.2 = none) :
    (interrupt look).Ensures (Journaled.respond hw perform) fuel s fun _ s' =>
      Flushed s s' := by
  have hsettled : (lookIfFree look).Ensures (Journaled.respond hw perform) fuel s
      fun _ s' => Settled s s' :=
    settled_of_plain haccounting (lookIfFree_plain hlook) ⟨.refl s, hasking⟩
  refine ensures_bind (ensures_mono (ensures_and (lookIfFree_unheld hs) hsettled)
    fun _ s₁ ⟨hs₁, haccounted, hasking₁⟩ => ?_)
  exact ensures_mono (flushDeferred_flushed hnests hs₁ hasking₁)
    fun _ s₂ hflush => hflush.trans haccounted.ready

/-- To ask whether there is a console changes nothing but the journal. -/
theorem isInstalled_same {s s' : Journaled σ} {v : Bool}
    (hrun : Journaled.respond hw perform (.service .isInstalled) s = .ok (v, s')) :
    v = installed s.1 ∧ s' = (s.1, .service .isInstalled v :: s.2) := by
  cases hrun
  exact ⟨rfl, rfl⟩

/-- Bringing up the console does nothing if it is there. Otherwise the backlog is
    written out after it is installed, also if somebody else installed one meanwhile. -/
theorem init_flushed (hnests : Nests perform) (haccounting : Accounting perform)
    (hputs : PutsBack perform) (settings : Settings) {s : Journaled σ} (hs : Unheld s.1) :
    (Kernel.init settings).Ensures (Journaled.respond hw perform) fuel s fun _ s' =>
      installed s.1 = true ∧ s'.1 = s.1 ∨ installed s.1 = false ∧ Flushed s s' := by
  refine ensures_bind (ensures_call fun v s₁ hreply => ensures_done ?_)
  rcases isInstalled_same hreply with ⟨rfl, rfl⟩
  by_cases hyes : installed s.1 = true
  · rw [if_pos hyes]
    exact ensures_pure (.inl ⟨hyes, rfl⟩)
  · have hno : installed s.1 = false := Bool.eq_false_iff.2 hyes
    rw [if_neg hyes]
    cases Console.ofSettings settings with
    | error fault =>
        -- refused before anything happens
        have htidy : Tidy s.1 := fun hinstalled => absurd hinstalled hyes
        exact ensures_pure (.inr ⟨hno, hs, rfl, fun hready => hready, fun _ => htidy⟩)
    | ok c =>
        have hspares : (c.init.withLogger : KernelIo σ Console).Only Spares :=
          withLogger_only (fun _ => trivial) (fun _ => trivial) (only_true c.init)
        have hsettled : Settled s (s.1, .service .isInstalled (installed s.1) :: s.2) :=
          ⟨.same rfl rfl rfl, rfl⟩
        refine ensures_bind (ensures_mono (ensures_and (unheld_of_spares hputs hspares hs)
          (settled_of_plain haccounting (withLogger_plain c.init) hsettled))
          fun c₂ s₂ ⟨hs₂, hsettled₂⟩ => ?_)
        refine ensures_bind (ensures_call fun _ s₃ hreply₃ => ensures_done ?_)
        -- Installing it makes it free, if nobody else has installed one meanwhile.
        have hs₃ : Unheld s₃.1 :=
          spares_unheld hputs (.service (.install c₂)) trivial s₂ hs₂ () s₃ hreply₃
        have hsettled₃ : Settled s s₃ :=
          service_settled (r := .install c₂) trivial hsettled₂ hreply₃
        refine ensures_bind (ensures_mono (flushDeferred_flushed hnests hs₃ hsettled₃.2)
          fun _ s₄ hflush => ensures_pure (.inr ⟨hno, ?_⟩))
        exact hflush.trans hsettled₃.1.ready

theorem hasLogger_same {s s' : Journaled σ} {v : Bool}
    (hrun : Journaled.respond hw perform (.service .hasLogger) s = .ok (v, s')) :
    v = s.1.shared.hasLogger ∧ s' = (s.1, .service .hasLogger v :: s.2) := by
  cases hrun
  exact ⟨rfl, rfl⟩

/-- A log call puts the console back, wherever its line went. It does not flush. -/
theorem log_unheld (hnests : Nests perform) (hputs : PutsBack perform) {call : LogCall σ}
    {s : Journaled σ} (hs : Unheld s.1) (hasking : asking s.2 = some call) :
    (log call.level call.target call.message.pieces).Ensures (Journaled.respond hw perform) fuel s
      fun _ s' => Unheld s'.1 := by
  refine ensures_bind (ensures_mono logEnabled_still fun enabled s₁ ⟨hstill, _⟩ => ?_)
  have hs₁ : Unheld s₁.1 := hstill.world ▸ hs
  by_cases henabled : enabled = true
  · rw [if_pos henabled]
    rcases free_or_not s₁.1 with ⟨c, hfree⟩ | hnot
    · -- the line goes to the console, which is put back after it
      refine ensures_mono (logPassed_free hnests hfree (hstill.asking.trans hasking))
        fun _ s' ⟨_, _, _, ⟨c', hput⟩, _⟩ => ?_
      exact unheld_free hput
    · cases hlock : s₁.1.shared.backlog with
      | held =>
          -- there is nowhere for the line to go
          refine ensures_mono (logPassed_lost hnot hlock) fun _ s' ⟨hworld, _, _⟩ => ?_
          rw [hworld]
          exact hs₁
      | free b =>
          -- What runs while the line is written puts back what it takes.
          have hkept : ∀ op, True → ∀ t v t', Unheld t.1 → perform op t = .ok (v, t') →
              Unheld t'.1 := by
            intro op _ t v t' ht hrun
            exact hputs op t v t' ht hrun
          have hseized : Unheld (seized s₁ b).1 := hs₁
          refine ensures_mono (logPassed_kept (K := fun t : Journaled σ => Unheld t.1) hnot hlock
            hkept call.message.each_true hseized) fun _ s' ⟨_, t, _, ht, hworld, _, _⟩ => ?_
          rw [hworld]
          exact ht
  · rw [if_neg henabled]
    exact ensures_pure hs₁

/-- The operation writes out the backlog before it returns. Bringing up a console that
    is there already does not, and neither do no calls at all. -/
def Op.WritesOut (w : World σ) : Op σ → Prop
  | .init _ => installed w = false
  | .output bytes => bytes ≠ []
  | .input count => count ≠ 0
  | .flushLog => w.shared.hasLogger = true
  | .getByte | .readLine _ _ | .serialInterrupt | .keyboardInterrupt | .setColor _ _
  | .clearScreen | .print _ | .flushDeferred => True
  | _ => False

/-- What an operation does to the locks from one moment to another. -/
structure Op.Releases (op : Op σ) (s s' : Journaled σ) : Prop where
  /-- Nobody holds the console. -/
  unheld : Unheld s'.1
  /-- The backlog is written out. -/
  tidy : op.WritesOut s.1 → Ready s.1.shared.backlog → Tidy s'.1
  /-- Or it is none of the operation's business. -/
  same : ¬ op.IsLog → ¬ op.WritesOut s.1 →
    s'.1.shared.console = s.1.shared.console ∧ s'.1.shared.backlog = s.1.shared.backlog

/-- An operation that writes out the backlog may end with a flush. -/
theorem Flushed.releases {op : Op σ} {s t s' : Journaled σ} (h : Flushed t s')
    (hworld : t.1 = s.1) (hwrites : op.WritesOut s.1) : op.Releases s s' where
  unheld := h.unheld
  tidy _ hready := h.tidy (hworld ▸ hready)
  same _ hnot := absurd hwrites hnot

/-- An operation that does not write it out may leave both locks as they were. -/
theorem Op.Releases.of_same {op : Op σ} {s s' : Journaled σ} (hs : Unheld s.1)
    (hnot : ¬ op.WritesOut s.1) (hconsole : s'.1.shared.console = s.1.shared.console)
    (hbacklog : s'.1.shared.backlog = s.1.shared.backlog) : op.Releases s s' where
  unheld := by
    unfold Unheld
    rw [hconsole]
    exact hs
  tidy hwrites := absurd hwrites hnot
  same _ _ := ⟨hconsole, hbacklog⟩

section Kinds

variable {op : Op σ} {u : Usage} {use : Console.Use Unit} {w : World σ}

/-- An operation that uses the console writes out the backlog if there is a use at all. -/
theorem Op.writesOut_of_usage (h : op.usage? = some u) : op.WritesOut w ↔ u.all ≠ [] := by
  cases op <;> cases h
  case output bytes => exact not_congr List.map_eq_nil_iff.symm
  case input count => exact not_congr (List.replicate_eq_nil_iff _).symm
  all_goals exact iff_of_true trivial (List.cons_ne_nil _ _)

theorem Op.writesOut_of_look (h : op.look? = some use) : op.WritesOut w := by
  cases op <;> cases h
  all_goals exact trivial

theorem Op.not_writesOut_of_lockless (h : op.Lockless) : ¬ op.WritesOut w := by
  cases op <;> first | exact not_false | exact absurd h not_false

end Kinds

/-- Where the console and the backlog are, and who holds them. -/
def World.locks (w : World σ) : Option (Lock Console) × Lock Backlog :=
  (w.shared.console, w.shared.backlog)

/-- Requests that are about neither lock leave both as they are. -/
theorem bare_locks {A : Op σ → Prop} {s₀ : Journaled σ} :
    ∀ r : (Calls σ).Request, Bare A r → ∀ s, s.1.locks = s₀.1.locks → ∀ v s',
      Journaled.respond hw perform r s = .ok (v, s') → s'.1.locks = s₀.1.locks := by
  intro r hr s hs v s' hreply
  cases r with
  | access a => exact absurd hr not_false
  | call op => exact absurd hr not_false
  | service r =>
      cases r <;> first | exact absurd hr.1 not_false | cases hreply
      all_goals exact hs
  | arm countdown op =>
      cases hreply
      exact hs
  | outside act =>
      cases hreply
      exact hs

/-- Every use of the console flushes, so if there is one the backlog is written out in the
    end. -/
theorem useAll_flushed (hnests : Nests perform) (haccounting : Accounting perform)
    {uses : List (Console.Use α)} (huses : uses ≠ []) {s : Journaled σ} (hs : Unheld s.1)
    (hasking : asking s.2 = none) :
    (useAll uses).Ensures (Journaled.respond hw perform) fuel s fun _ s' => Flushed s s' := by
  have hplain : ∀ (use : Console.Use α) c, (use.logged c : KernelIo σ _).Only Plain :=
    fun use c => withLogger_plain (use.drive c)
  cases uses with
  | nil => exact absurd rfl huses
  | cons use rest =>
      -- The first use flushes, and each of the others flushes what came after.
      refine ensures_bind (ensures_mono (withConsole_flushed hnests haccounting (hplain use) hs
        hasking) fun _ s₁ h₁ => ?_)
      refine ensures_bind (ensures_mono (ensures_useAll (K := Flushed s) (fun use' _ t ht => ?_) h₁)
        fun _ _ h => ensures_pure h)
      exact ensures_mono (withConsole_flushed hnests haccounting (hplain use') ht.unheld ht.asking)
        fun _ _ h => h.trans ht.ready

/-- What an operation does that is called where nobody holds the console. -/
theorem program_releases (hnests : Nests perform) (haccounting : Accounting perform)
    (hputs : PutsBack perform) (op : Op σ) {s : Journaled σ} (hs : Unheld s.1) :
    op.program.Ensures (Journaled.respond hw perform) fuel (s.1, .enter op :: s.2)
      fun _ s' => op.Releases s s' := by
  cases op.shape with
  | init settings =>
      refine ensures_map (ensures_mono (init_flushed hnests haccounting hputs settings hs)
        fun _ s' h => ?_)
      rcases h with ⟨hyes, hworld⟩ | ⟨hno, hflush⟩
      · have hnot : ¬ (Op.init settings : Op σ).WritesOut s.1 := by
          intro hno
          exact Bool.false_ne_true (hno.symm.trans hyes)
        refine .of_same hs hnot ?_ ?_
        all_goals rw [hworld]
      · exact hflush.releases rfl hno
  | @uses _ u husage =>
      rw [Op.program_of_usage husage]
      by_cases hnone : u.all = []
      · -- no use at all
        have hnot : ¬ op.WritesOut s.1 := fun h => (Op.writesOut_of_usage husage).1 h hnone
        rw [hnone]
        exact ensures_map (ensures_pure (.of_same hs hnot rfl rfl))
      · have hasking := asking_enter (Op.not_isLog_of_usage husage) s.2
        exact ensures_map (ensures_mono (useAll_flushed hnests haccounting hnone (by exact hs)
          hasking) fun _ _ h => h.releases rfl ((Op.writesOut_of_usage husage).2 hnone))
  | looks hlook =>
      rw [Op.program_of_look hlook]
      refine ensures_bind (ensures_mono (interrupt_flushed hnests haccounting (fun c => ?_)
        (by exact hs) (asking_enter (Op.not_isLog_of_look hlook) s.2)) fun _ _ h =>
          ensures_pure (h.releases rfl (Op.writesOut_of_look hlook)))
      exact Only.bind (withLogger_plain _) fun _ => Only.pure
  | log level target message =>
      let start : Journaled σ := (s.1, .enter (.log level target message) :: s.2)
      have hasking : asking start.2 = some ⟨level, target, message⟩ := rfl
      refine ensures_bind (ensures_mono (log_unheld (s := start) hnests hputs hs hasking)
        fun _ s' hs' => ensures_pure ⟨hs', fun hwrites => ?_, fun hnot => ?_⟩)
      · exact absurd hwrites not_false
      · exact absurd trivial hnot
  | flushLog =>
      -- The logger is asked for first, and without one there is no flush.
      refine ensures_flushLog (fun s₁ hreply => ?_) fun s₁ hreply => ?_
      all_goals rcases hasLogger_same hreply with ⟨hlogger, rfl⟩
      · exact ensures_mono (flushDeferred_flushed hnests hs rfl)
          fun _ s₂ h => h.releases rfl hlogger.symm
      · exact .of_same hs (fun hyes => Bool.false_ne_true (hlogger.trans hyes)) rfl rfl
  | flushDeferred =>
      exact ensures_bind (ensures_mono (flushDeferred_flushed hnests hs rfl)
        fun _ _ h => ensures_pure (h.releases rfl trivial))
  | lockless hlockless =>
      have hbare : op.program.Only (Bare fun _ => True) :=
        lockless_only hlockless fun _ _ _ => trivial
      refine ensures_mono (hbare.ensures (K := fun t : Journaled σ => t.1.locks = s.1.locks)
        bare_locks rfl) fun _ s' hlocks => ?_
      rcases Prod.mk.inj hlocks with ⟨hconsole, hbacklog⟩
      exact .of_same hs (Op.not_writesOut_of_lockless hlockless) hconsole hbacklog

end Programs

/-- Operations put the console back, and so do those that fire inside them. -/
theorem unheld_perform (hw : Handler Hardware σ) (fuel : Nat) :
    PutsBack (Journaled.perform hw fuel) := by
  -- The operations inside have less fuel.
  induction fuel with
  | zero => exact fun op s r s' _ hrun => nomatch hrun
  | succ fuel ih =>
      intro op s r s' hs hrun
      rcases bind_eq_ok.1 hrun with ⟨⟨v, t⟩, hprogram, hend⟩
      have ht := program_releases (nests_perform hw fuel) (accounting_perform hw fuel) ih op hs
        v t hprogram
      cases hend
      exact ht.unheld

/-- What `program_releases` says of a program holds of the operation that runs it. -/
theorem perform_releases {hw : Handler Hardware σ} {fuel : Nat} {op : Op σ}
    {s s' : Journaled σ} {r : Result} (hs : Unheld s.1)
    (hrun : Journaled.perform hw fuel op s = .ok (r, s')) : op.Releases s s' := by
  -- An operation that returned had fuel.
  cases fuel with
  | zero => exact nomatch hrun
  | succ fuel =>
      rcases bind_eq_ok.1 hrun with ⟨⟨v, t⟩, hprogram, hend⟩
      have ht := program_releases (nests_perform hw fuel) (accounting_perform hw fuel)
        (unheld_perform hw fuel) op hs v t hprogram
      cases hend
      exact ⟨ht.unheld, ht.tidy, ht.same⟩

/-- Nobody holds the console, and nobody holds the backlog. -/
def Unlocked (s : Journaled σ) : Prop := Unheld s.1 ∧ Ready s.1.shared.backlog

/-- One turn leaves both locks free. By `turns_keep`, so does every turn of a run. -/
theorem Turn.Runs.unlocked {hw : Handler Hardware σ} {fuel : Nat} {x : Turn σ}
    (hx : x.Runs hw fuel) (hbefore : Unlocked x.before) : Unlocked x.after := by
  rcases hbefore with ⟨hunheld, hready⟩
  have haccounted := (accounting_perform hw fuel x.op x.before x.result x.after hx).1
  exact ⟨unheld_perform hw fuel x.op x.before x.result x.after hunheld hx,
    haccounted.ready hready⟩

end Kernel

end KernelConsole
