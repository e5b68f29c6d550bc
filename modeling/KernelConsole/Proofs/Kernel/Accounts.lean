import KernelConsole.Proofs.Kernel.Rest

/-!
# Accounts of the Backlog

What becomes of a line in the backlog, whatever runs: it is there until the backlog
is written out, unless newer lines push it out of the ring. Nothing else takes
anything from the backlog.

This holds of every operation from every state, also while the locks are held and
with a console that is brought up inside of another operation. Then what is sent
need not come in whole units any more, but a line still does, and so does the
backlog: who writes them holds the console.

## Main definitions

* `Kernel.Account`: What the entries of a ledger do to the backlog.
* `Kernel.Accounted`: There is a ledger for what happened from one moment to
  another.

## Theorems

* `Kernel.Account.of_held`: Nothing is done to a backlog that is held.
* `Kernel.logPassed_accounted`, `Kernel.log_settled`: Log calls are accounted for.
* `Kernel.program_accounted`, `Kernel.accounting_perform`: So is every operation.
* `Kernel.performAll_accounted`: So are several.
-/

namespace KernelConsole

namespace Kernel

open Prog

variable {σ S α : Type}

/-- What the entries of a ledger do to the backlog. Lines go in while nobody holds
    it, and it is written out as a whole. -/
inductive Account : Lock Backlog → List Entry → Lock Backlog → Prop
  | nil (l : Lock Backlog) : Account l [] l
  | own {l l' : Lock Backlog} {bytes : List UInt8} {rest : List Entry} : Account l rest l' →
      Account l (.own bytes :: rest) l'
  | line {l l' : Lock Backlog} {r : Record} {rest : List Entry} : Account l rest l' →
      Account l (.line r :: rest) l'
  | kept {b : Backlog} {l' : Lock Backlog} {r : Record} {rest : List Entry} :
      Account (.free ⟨b.pending.pushAll (utf8 r.line)⟩) rest l' →
      Account (.free b) (.kept r :: rest) l'
  | dump {b : Backlog} {l' : Lock Backlog} {rest : List Entry} :
      Account (.free ⟨b.pending.drain.2⟩) rest l' →
      Account (.free b) (.dump b.pending.contents :: rest) l'

/-- The entries of two ledgers do one after the other what each of them does. -/
theorem Account.append {l m n : Lock Backlog} {es fs : List Entry} (hes : Account l es m)
    (hfs : Account m fs n) : Account l (es ++ fs) n := by
  induction hes with
  | nil l => exact hfs
  | own _ ih => exact .own (ih hfs)
  | line _ ih => exact .line (ih hfs)
  | kept _ ih => exact .kept (ih hfs)
  | dump _ ih => exact .dump (ih hfs)

/-- Entries that leave a backlog alone that is held leave any backlog alone. -/
theorem Account.of_held {l : Lock Backlog} {es : List Entry} (h : Account .held es l) :
    l = .held ∧ ∀ m, Account m es m := by
  -- No entry of a backlog's can come first, and the others do not touch it.
  generalize hheld : Lock.held = start at h
  induction h with
  | nil l => exact ⟨rfl, .nil⟩
  | own _ ih => exact ⟨(ih hheld).1, fun m => .own ((ih hheld).2 m)⟩
  | line _ ih => exact ⟨(ih hheld).1, fun m => .line ((ih hheld).2 m)⟩
  | kept _ _ => exact nomatch hheld
  | dump _ _ => exact nomatch hheld

/-- Lines that went into the backlog are so many entries, and a held backlog took none. -/
theorem account_keptAll (l : Lock Backlog) (records : List Record)
    (hheld : l.isFree = false → records = []) :
    Account l (records.map .kept) (withLines l records) := by
  cases l with
  | held =>
      rw [hheld rfl]
      exact .nil _
  | free b =>
      induction records generalizing b with
      | nil => exact .nil _
      | cons r rest ih =>
          -- The first line is in, and the others go into what it leaves.
          have hrest := ih ⟨b.pending.pushAll (utf8 r.line)⟩ nofun
          rw [withLines, ← Ring.pushAll_append] at hrest
          exact .kept hrest

/-- The entries for writing out the backlog. -/
def dumped : Lock Backlog → List Entry
  | .free b => [.dump b.pending.contents]
  | .held => []

/-- One entry writes out a backlog that nobody else holds. -/
theorem account_dumped (l : Lock Backlog) : Account l (dumped l) (emptied l) := by
  cases l with
  | free b => exact .dump (.nil _)
  | held => exact .nil _

theorem wire_dumped (l : Lock Backlog) : (dumped l).flatMap Entry.wire = waiting l := by
  cases l with
  | free b => exact List.append_nil _
  | held => rfl

theorem record_dumped (l : Lock Backlog) : (dumped l).filterMap Entry.record? = [] := by
  cases l <;> rfl

theorem Books.refl (s : Journaled σ) : Books s s [] :=
  ⟨(List.append_nil _).symm, [], (List.append_nil _).symm, .nil⟩

/-- There is a ledger for what happened from one moment to another. -/
def Accounted (s s' : Journaled σ) : Prop :=
  ∃ entries, Books s s' entries ∧ Account s.1.shared.backlog entries s'.1.shared.backlog

theorem Accounted.refl (s : Journaled σ) : Accounted s s := ⟨[], .refl s, .nil _⟩

/-- Two stretches that are accounted for are accounted for as one. -/
theorem Accounted.trans {s t u : Journaled σ} (hst : Accounted s t) (htu : Accounted t u) :
    Accounted s u := by
  rcases hst with ⟨es, hes, haccount⟩
  rcases htu with ⟨fs, hfs, haccount'⟩
  exact ⟨es ++ fs, hes.trans hfs, haccount.append haccount'⟩

/-- Nothing happened that a ledger would say. -/
theorem Accounted.same {s s' : Journaled σ} (hsent : sent s'.2 = sent s.2)
    (hacquired : acquired s'.2 = acquired s.2)
    (hbacklog : s'.1.shared.backlog = s.1.shared.backlog) : Accounted s s' := by
  refine ⟨[], ⟨hsent.trans (List.append_nil _).symm, [],
    hacquired.trans (List.append_nil _).symm, .nil⟩, ?_⟩
  rw [hbacklog]
  exact .nil _

/-- Every operation that runs is accounted for. -/
def Accounting (perform : Op σ → Journaled σ → Except Halt (Result × Journaled σ)) : Prop :=
  ∀ op s r s', perform op s = .ok (r, s') → Accounted s s' ∧ asking s'.2 = none

/-- It is accounted for what happened, and no log call is looking for a sink. -/
def Settled (s s' : Journaled σ) : Prop := Accounted s s' ∧ asking s'.2 = none

/-- A request that does not ask for the backlog. -/
def Plain : (Calls σ).Request → Prop
  | .service .tryLockBacklog => False
  | .service (.unlockBacklog _) => False
  | _ => True

theorem withLogger_plain (p : LoggedIo α) : (p.withLogger : KernelIo σ α).Only Plain :=
  withLogger_only (fun _ => trivial) (fun _ => trivial) (only_true p)

/-- A request that asks for no lock does not ask for the backlog. -/
theorem bare_plain {A : Op σ → Prop} : ∀ r : (Calls σ).Request, Bare A r → Plain r
  | .service r, h => by cases r <;> first | exact trivial | exact absurd h.1 not_false
  | .arm _ _, _ => trivial
  | .outside _, _ => trivial
  | .access _, _ => trivial
  | .call _, _ => trivial

theorem holding_plain {use : Console → KernelIo σ (α × Console)}
    (huse : ∀ c, (use c).Only Plain) : (holding use).Only Plain := by
  refine Only.bind (Only.one trivial) fun c? => ?_
  cases c? with
  | none => exact Only.pure
  | some c =>
      exact Only.bind (huse c) fun _ => Only.bind (Only.one trivial) fun _ => Only.pure

theorem lookIfFree_plain {look : Console → KernelIo σ Console}
    (hlook : ∀ c, (look c).Only Plain) : (lookIfFree look).Only Plain := by
  refine Only.bind (Only.one trivial) fun c? => ?_
  cases c? with
  | none => exact Only.pure
  | some c => exact Only.bind (hlook c) fun _ => Only.one trivial

section Programs

variable {hw : Handler Hardware σ}
  {perform : Op σ → Journaled σ → Except Halt (Result × Journaled σ)} {fuel : Nat}

/-- Operations called one after the other are accounted for if each of them is. -/
theorem runAll_accounted (haccounting : Accounting perform) (ops : List (Op σ))
    {s s' : Journaled σ} (hrun : Journaled.runAll perform ops s = .ok s') : Accounted s s' := by
  induction ops generalizing s with
  | nil =>
      cases hrun
      exact .refl _
  | cons op rest ih =>
      rcases bind_eq_ok.1 hrun with ⟨⟨r, t⟩, hfirst, hrest⟩
      exact (haccounting op s r t hfirst).1.trans (ih hrest)

theorem interrupts_accounted (haccounting : Accounting perform) (a : Access)
    {s s' : Journaled σ} (hrun : Journaled.interrupts perform a s = .ok s') :
    Accounted s s' := by
  unfold Journaled.interrupts at hrun
  by_cases hport : a.isPort
  · rw [if_pos hport] at hrun
    -- Counting down sends nothing.
    have htick : Accounted s (s.1.tick.2, s.2) := .same rfl rfl rfl
    exact htick.trans (runAll_accounted haccounting _ hrun)
  · rw [if_neg hport] at hrun
    cases hrun
    exact .refl _

theorem service_settled {s₀ s s' : Journaled σ} {r : Service} {v : r.Reply}
    (hr : Plain (.service r : (Calls σ).Request)) (hs : Settled s₀ s)
    (hreply : Journaled.respond hw perform (.service r) s = .ok (v, s')) : Settled s₀ s' := by
  rcases hs with ⟨haccounted, hasking⟩
  -- Nobody is looking for a sink, so taking the console is nobody's log call.
  have htaken : ∀ c, acquired (.service .tryLockConsole (some c) :: s.2) = acquired s.2 := by
    intro c
    simp only [acquired, hasking, Option.toList_none, List.map_nil, List.append_nil]
  cases r with
  | tryLockBacklog => exact absurd hr not_false
  | unlockBacklog b => exact absurd hr not_false
  | install c =>
      cases hreply
      refine ⟨haccounted.trans (.same rfl rfl ?_), rfl⟩
      cases s.1.shared.console <;> rfl
  | lockConsole =>
      rcases lockConsole_reply hreply with ⟨rfl, _, rfl⟩ | ⟨c, rfl, _, rfl⟩
      all_goals exact ⟨haccounted.trans (.same rfl rfl rfl), rfl⟩
  | tryLockConsole =>
      rcases tryLockConsole_reply hreply with ⟨rfl, _, rfl⟩ | ⟨c, rfl, _, rfl⟩
      · exact ⟨haccounted.trans (.same rfl rfl rfl), hasking⟩
      · exact ⟨haccounted.trans (.same rfl (htaken c) rfl), rfl⟩
  | hasLogger | filter =>
      cases hreply
      exact ⟨haccounted.trans (.same rfl rfl rfl), hasking⟩
  | isInstalled | unlockConsole _ | installLogger | setFilter _ =>
      cases hreply
      exact ⟨haccounted.trans (.same rfl rfl rfl), rfl⟩

theorem plain_settled (haccounting : Accounting perform) {s₀ : Journaled σ} :
    ∀ r : (Calls σ).Request, Plain r → ∀ s, Settled s₀ s → ∀ v s',
      Journaled.respond hw perform r s = .ok (v, s') → Settled s₀ s' := by
  intro r hr s ⟨haccounted, hasking⟩ v s' hreply
  cases r with
  | access a =>
      rcases bind_eq_ok.1 hreply with ⟨t, hinterrupts, hrest⟩
      rcases bind_eq_ok.1 hrest with ⟨⟨reply, m⟩, _, hend⟩
      cases hend
      refine ⟨haccounted.trans ((interrupts_accounted haccounting a hinterrupts).trans ?_), rfl⟩
      -- Whose byte it is does not matter here, so it is an entry of its own.
      refine ⟨[.own a.sends], ⟨?_, [], (List.append_nil _).symm, .nil⟩, .own (.nil _)⟩
      rw [List.flatMap_singleton]
      exact sent_access a reply t.2
  | service r => exact service_settled hr ⟨haccounted, hasking⟩ hreply
  | call op =>
      rcases haccounting op s v s' hreply with ⟨hop, hdone⟩
      exact ⟨haccounted.trans hop, hdone⟩
  | arm countdown op =>
      cases hreply
      exact ⟨haccounted.trans (.same rfl rfl rfl), hasking⟩
  | outside act =>
      cases hreply
      exact ⟨haccounted.trans (.same rfl rfl rfl), hasking⟩

theorem settled_of_plain (haccounting : Accounting perform) {p : KernelIo σ α}
    (hp : p.Only Plain) {s₀ s : Journaled σ} (hs : Settled s₀ s) :
    p.Ensures (Journaled.respond hw perform) fuel s fun _ s' => Settled s₀ s' :=
  hp.ensures (plain_settled haccounting) hs

/-- A console lies free or it does not, and a log call takes it only if it does. -/
theorem free_or_not (w : World σ) :
    (∃ c, w.shared.console = some (.free c)) ∨ ∀ c, w.shared.console ≠ some (.free c) := by
  by_cases hfree : ∃ c, w.shared.console = some (.free c)
  · exact .inl hfree
  · exact .inr fun c hc => hfree ⟨c, hc⟩

/-- A flush is one entry of the ledger, if it finds a console. -/
theorem flushDeferred_settled (hnests : Nests perform) {s₀ s : Journaled σ}
    (hs : Settled s₀ s) :
    flushDeferred.Ensures (Journaled.respond hw perform) fuel s fun _ s' => Settled s₀ s' := by
  rcases hs with ⟨haccounted, hasking⟩
  refine ensures_bind (ensures_call fun v s₁ hreply => ensures_done ?_)
  rcases tryLockConsole_reply hreply with ⟨rfl, _, rfl⟩ | ⟨c, rfl, _, rfl⟩
  · exact ensures_pure ⟨haccounted.trans (.same rfl rfl rfl), hasking⟩
  · refine ensures_bind (ensures_mono (flushOnto_held hnests c rfl rfl)
      fun c₂ s₂ ⟨_, hemptied, hacquired, hsent⟩ => ?_)
    refine ensures_call fun _ s₃ hreply₃ => ensures_done ?_
    cases hreply₃
    -- While the console is held nobody gets a sink, so the entry stands alone.
    refine ⟨haccounted.trans ⟨dumped s.1.shared.backlog, ⟨?_, [], ?_, ?_⟩, ?_⟩, rfl⟩
    · rw [wire_dumped]
      exact hsent
    · refine (hacquired.trans ?_).trans (List.append_nil _).symm
      simp only [taken, acquired, hasking, Option.toList_none, List.map_nil, List.append_nil]
    · rw [record_dumped]
      exact .nil
    · have haccount := account_dumped s.1.shared.backlog
      rw [← show s₂.1.shared.backlog = emptied s.1.shared.backlog from hemptied] at haccount
      exact haccount

/-- A use of the console is accounted for, and the flush after it. -/
theorem withConsole_settled (hnests : Nests perform) (haccounting : Accounting perform)
    {use : Console → KernelIo σ (α × Console)} (huse : ∀ c, (use c).Only Plain)
    {s₀ s : Journaled σ} (hs : Settled s₀ s) :
    (withConsole use).Ensures (Journaled.respond hw perform) fuel s fun _ s' => Settled s₀ s' := by
  refine ensures_bind (ensures_mono (settled_of_plain haccounting (holding_plain huse) hs)
    fun _ s₁ hs₁ => ?_)
  exact ensures_bind (ensures_mono (flushDeferred_settled hnests hs₁)
    fun _ s₂ hs₂ => ensures_pure hs₂)

theorem interrupt_settled (hnests : Nests perform) (haccounting : Accounting perform)
    {look : Console → KernelIo σ Console} (hlook : ∀ c, (look c).Only Plain)
    {s₀ s : Journaled σ} (hs : Settled s₀ s) :
    (interrupt look).Ensures (Journaled.respond hw perform) fuel s fun _ s' => Settled s₀ s' := by
  refine ensures_bind (ensures_mono (settled_of_plain haccounting (lookIfFree_plain hlook) hs)
    fun _ s₁ hs₁ => ?_)
  exact flushDeferred_settled hnests hs₁

/-- A log call that only gets the backlog is accounted for, and whatever runs while
    the line is written leaves the backlog alone. -/
theorem logPassed_accounted (haccounting : Accounting perform) {call : LogCall σ} {b : Backlog}
    {s : Journaled σ} (hconsole : ∀ c, s.1.shared.console ≠ some (.free c))
    (hbacklog : s.1.shared.backlog = .free b) (hasking : asking s.2 = some call) :
    (logPassed call.level call.target call.message.pieces).Ensures (Journaled.respond hw perform)
      fuel s fun _ s' => ∃ r, call.Writes r ∧ Accounted s s' ∧
        s'.1.shared.backlog = withLines (.free b) [r] := by
  have hkept : ∀ op, True → ∀ t v t', Accounted (seized s b) t →
      perform op t = .ok (v, t') → Accounted (seized s b) t' := by
    intro op _ t v t' ht hrun
    exact ht.trans (haccounting op t v t' hrun).1
  refine ensures_mono (logPassed_kept hconsole hbacklog hkept call.message.each_true (.refl _))
    fun _ s' ⟨r, t, hwrites, ⟨es, hbooks, haccount⟩, hworld, hacquired, hsent⟩ => ?_
  have hpending : s'.1.shared.backlog = withLines (.free b) [r] := by rw [hworld]
  refine ⟨r, hwrites, ⟨.kept r :: es, ⟨hsent.trans hbooks.sent, ?_⟩, ?_⟩, hpending⟩
  · rcases hbooks.calls with ⟨calls, hcalls, hfits⟩
    refine ⟨(.backlog, call) :: calls, ?_, .cons ⟨rfl, hwrites⟩ hfits⟩
    rw [hacquired, hcalls, acquired_seized b hasking, List.append_assoc]
    rfl
  · -- The line goes in first: what runs meanwhile finds the backlog held.
    have hline := account_keptAll (.free b) [r] nofun
    rw [hbacklog, hpending]
    exact hline.append (haccount.of_held.2 _)

theorem log_settled (hnests : Nests perform) (haccounting : Accounting perform)
    {call : LogCall σ} {s : Journaled σ} (hasking : asking s.2 = some call) :
    (log call.level call.target call.message.pieces).Ensures (Journaled.respond hw perform) fuel s
      fun _ s' => Accounted s s' := by
  refine ensures_bind (ensures_mono logEnabled_still fun enabled s₁ ⟨hstill, _⟩ => ?_)
  have hstart : Accounted s s₁ :=
    .same hstill.sent hstill.acquired (congrArg (fun w => w.shared.backlog) hstill.world)
  have hasking₁ : asking s₁.2 = some call := hstill.asking.trans hasking
  by_cases henabled : enabled = true
  · rw [if_pos henabled]
    rcases free_or_not s₁.1 with ⟨c, hfree⟩ | hnot
    · refine ensures_mono (logPassed_free hnests hfree hasking₁) fun _ s' ⟨r, records, hwrites, _,
        hbacklog, hheld, ⟨calls, hcalls, hmatch⟩, hsent⟩ => hstart.trans ?_
      -- The backlog is written out first, then the line, and what was logged meanwhile is
      -- kept.
      refine ⟨dumped s₁.1.shared.backlog ++ .line r :: records.map .kept,
        ⟨?_, (.console, call) :: calls.map (Prod.mk .backlog), hcalls, ?_⟩, ?_⟩
      · rw [hsent, List.flatMap_append, wire_dumped, List.flatMap_cons, wire_kept,
          List.append_nil, List.append_assoc]
        rfl
      · rw [List.filterMap_append, record_dumped]
        exact .cons ⟨rfl, hwrites⟩ (forall₂_fits_backlog hmatch)
      · rw [hbacklog]
        exact (account_dumped _).append (.line (account_keptAll _ records hheld))
    · cases hlock : s₁.1.shared.backlog with
      | free b =>
          exact ensures_mono (logPassed_accounted haccounting hnot hlock hasking₁)
            fun _ s' ⟨_, _, haccounted, _⟩ => hstart.trans haccounted
      | held =>
          refine ensures_mono (logPassed_lost hnot hlock)
            fun _ s' ⟨hworld, hacquired, hsent⟩ => hstart.trans ?_
          exact .same hsent hacquired (congrArg (fun w => w.shared.backlog) hworld)
  · rw [if_neg henabled]
    exact ensures_pure hstart

theorem init_settled (hnests : Nests perform) (haccounting : Accounting perform)
    (settings : Settings) {s₀ s : Journaled σ} (hs : Settled s₀ s) :
    (Kernel.init settings).Ensures (Journaled.respond hw perform) fuel s
      fun _ s' => Settled s₀ s' := by
  refine ensures_bind (ensures_call fun v s₁ hreply => ensures_done ?_)
  have hs₁ : Settled s₀ s₁ := service_settled (r := .isInstalled) trivial hs hreply
  by_cases hyes : v = true
  · rw [if_pos hyes]
    exact ensures_pure hs₁
  · rw [if_neg hyes]
    cases Console.ofSettings settings with
    | error fault => exact ensures_pure hs₁
    | ok c =>
        -- What runs while the console is brought up does its own accounting.
        refine ensures_bind (ensures_mono
          (settled_of_plain haccounting (withLogger_plain c.init) hs₁) fun c₂ s₂ hs₂ => ?_)
        refine ensures_bind (ensures_call fun _ s₃ hreply₃ => ensures_done ?_)
        have hs₃ : Settled s₀ s₃ := service_settled (r := .install c₂) trivial hs₂ hreply₃
        exact ensures_bind (ensures_mono (flushDeferred_settled hnests hs₃)
          fun _ s₄ hs₄ => ensures_pure hs₄)

/-- Every operation is accounted for, from every state. -/
theorem program_accounted (hnests : Nests perform) (haccounting : Accounting perform)
    (op : Op σ) (s : Journaled σ) :
    op.program.Ensures (Journaled.respond hw perform) fuel (s.1, .enter op :: s.2)
      fun _ s' => Accounted s s' := by
  have hstart : Accounted s (s.1, .enter op :: s.2) := .same rfl rfl rfl
  have hsettled : ¬ op.IsLog → Settled s (s.1, .enter op :: s.2) :=
    fun hlog => ⟨hstart, asking_enter hlog s.2⟩
  cases op.shape with
  | init settings =>
      exact ensures_map (ensures_mono (init_settled hnests haccounting settings
        (hsettled not_false)) fun _ _ h => h.1)
  | uses husage =>
      rw [Op.program_of_usage husage]
      refine ensures_map (ensures_mono (ensures_useAll (K := Settled s) (fun use _ t ht => ?_)
        (hsettled (Op.not_isLog_of_usage husage))) fun _ _ h => h.1)
      exact withConsole_settled hnests haccounting (fun c => withLogger_plain (use.drive c)) ht
  | looks hlook =>
      rw [Op.program_of_look hlook]
      refine ensures_bind (ensures_mono (interrupt_settled hnests haccounting (fun c => ?_)
        (hsettled (Op.not_isLog_of_look hlook))) fun _ _ h => ensures_pure h.1)
      exact Only.bind (withLogger_plain _) fun _ => Only.pure
  | log level target message =>
      let start : Journaled σ := (s.1, .enter (.log level target message) :: s.2)
      have hasking : asking start.2 = some ⟨level, target, message⟩ := rfl
      exact ensures_bind (ensures_mono (log_settled (s := start) hnests haccounting hasking)
        fun _ s' h => ensures_pure (hstart.trans h))
  | flushLog =>
      have hask : ∀ v s₁, Journaled.respond hw perform (.service .hasLogger)
          (s.1, .enter .flushLog :: s.2) = .ok (v, s₁) → Settled s s₁ := fun v s₁ hreply =>
        service_settled (r := .hasLogger) trivial (hsettled not_false) hreply
      exact ensures_flushLog (fun s₁ hreply => ensures_mono
        (flushDeferred_settled hnests (hask true s₁ hreply)) fun _ _ h => h.1)
        fun s₁ hreply => (hask false s₁ hreply).1
  | flushDeferred =>
      exact ensures_bind (ensures_mono (flushDeferred_settled hnests (hsettled not_false))
        fun _ _ h => ensures_pure h.1)
  | lockless hlockless =>
      have hbare : op.program.Only (Bare fun _ => True) :=
        lockless_only hlockless fun _ _ _ => trivial
      exact ensures_mono (settled_of_plain haccounting (hbare.mono bare_plain)
        (hsettled (Op.not_isLog_of_lockless hlockless))) fun _ _ h => h.1

end Programs

/-- Every operation is accounted for, however deep others run in it. -/
theorem accounting_perform (hw : Handler Hardware σ) (fuel : Nat) :
    Accounting (Journaled.perform hw fuel) := by
  -- As for `nests_perform`, the operations inside have less fuel.
  induction fuel with
  | zero => exact fun op s r s' hrun => nomatch hrun
  | succ fuel ih =>
      intro op s r s' hrun
      rcases bind_eq_ok.1 hrun with ⟨⟨v, t⟩, hprogram, hend⟩
      have ht := program_accounted (nests_perform hw fuel) ih op s v t hprogram
      cases hend
      exact ⟨ht.trans (.same rfl rfl rfl), rfl⟩

/-- Whatever operations run, one after the other, from whatever state, there is a
    ledger of what they do. -/
theorem performAll_accounted (hw : Handler Hardware σ) (fuel : Nat) (ops : List (Op σ))
    {s s' : Journaled σ} {results : List Result}
    (hrun : Journaled.performAll hw fuel ops s = .ok (results, s')) : Accounted s s' := by
  induction ops generalizing s results with
  | nil =>
      cases hrun
      exact .refl _
  | cons op rest ih =>
      rcases bind_eq_ok.1 hrun with ⟨⟨r, t⟩, hfirst, hothers⟩
      rcases bind_eq_ok.1 hothers with ⟨⟨rs, u⟩, hrest, hend⟩
      cases hend
      exact (accounting_perform hw fuel op s r t hfirst).1.trans (ih hrest)

end Kernel

end KernelConsole
