import KernelConsole.Proofs.Kernel.Accounts
import KernelConsole.Proofs.Kernel.Units

/-!
# What Becomes of a Log Call

A record that the filter lets pass is written to the console if that is free, and
goes into the backlog if that is free. A log call never waits, so a record is lost
if it finds neither. That happens to a record that is logged while another one is
being written into the backlog, or while the backlog is being written out.

A line that went into the backlog stays there until it is written out, and only
newer lines can push it out.

## Main definitions

* `Kernel.LogCall.Stored`: The line of a record is on the console or in the
  backlog.
* `Kernel.HasSink`: A log call finds the console or the backlog free.

## Theorems

* `Kernel.log_stored_iff`: Which log calls store their record.
* `Kernel.logged_while_flushing_lost`: One that does not.
-/

namespace KernelConsole

namespace Kernel

open Prog

variable {σ : Type}

/-- The line of a record of the log call was written to the console as a whole, after
    what waited there for it, or it was put into the backlog as a whole. -/
def LogCall.Stored (call : LogCall σ) (s s' : Journaled σ) : Prop :=
  ∃ r, call.Writes r ∧
    (sent s'.2 = sent s.2 ++ waiting s.1.shared.backlog ++ utf8 r.line ∨
      s.1.shared.backlog.isFree = true ∧
        s'.1.shared.backlog = withLines s.1.shared.backlog [r])

/-- The console is installed and nobody holds it, or nobody holds the backlog. -/
def HasSink (w : World σ) : Prop :=
  (∃ c, w.shared.console = some (.free c)) ∨ w.shared.backlog.isFree = true

/-- The logger lets a level pass. -/
def Passes (w : World σ) (level : Level) : Prop :=
  w.shared.hasLogger = true ∧ w.shared.filter.admits level = true

instance (w : World σ) (level : Level) : Decidable (Passes w level) :=
  inferInstanceAs (Decidable (_ ∧ _))

theorem utf8_line_ne_nil (r : Record) : utf8 r.line ≠ [] := by
  have hline : utf8 r.line = utf8 (Record.heading r.level r.target ++ r.message) ++ utf8 "\n" :=
    utf8_append _ _
  have hend : utf8 "\n" ≠ [] := by decide
  rw [hline]
  exact List.append_ne_nil_of_right_ne_nil _ hend

/-- A log call whose record passes stores it exactly if it finds a sink. -/
theorem log_stored {hw : Handler Hardware σ}
    {perform : Op σ → Journaled σ → Except Halt (Result × Journaled σ)} {fuel : Nat}
    (hnests : Nests perform) (haccounting : Accounting perform) {call : LogCall σ}
    {s : Journaled σ} (hpasses : Passes s.1 call.level) (hasking : asking s.2 = some call) :
    (log call.level call.target call.message.pieces).Ensures (Journaled.respond hw perform) fuel s
      fun _ s' => call.Stored s s' ↔ HasSink s.1 := by
  refine ensures_bind (ensures_mono logEnabled_still fun enabled s₁ ⟨hstill, henabled⟩ => ?_)
  -- The record passes, so the sinks are asked for.
  have hyes : enabled = true := by
    rw [henabled, hpasses.1, hpasses.2]
    rfl
  rw [if_pos hyes, ← hstill.world]
  have hasking₁ : asking s₁.2 = some call := hstill.asking.trans hasking
  rcases free_or_not s₁.1 with ⟨c, hfree⟩ | hnot
  · refine ensures_mono (logPassed_free hnests hfree hasking₁)
      fun _ s' ⟨r, _, hwrites, _, _, _, _, hsent⟩ => ⟨fun _ => .inl ⟨c, hfree⟩, fun _ => ?_⟩
    refine ⟨r, hwrites, .inl ?_⟩
    rw [← hstill.sent, ← hstill.world]
    exact hsent
  · cases hlock : s₁.1.shared.backlog with
    | free b =>
        have hsink : s₁.1.shared.backlog.isFree = true := congrArg Lock.isFree hlock
        refine ensures_mono (logPassed_accounted haccounting hnot hlock hasking₁)
          fun _ s' ⟨r, hwrites, _, hkept⟩ => ⟨fun _ => .inr hsink, fun _ => ?_⟩
        refine ⟨r, hwrites, .inr ?_⟩
        rw [← hstill.world]
        refine ⟨hsink, ?_⟩
        rw [hlock]
        exact hkept
    | held =>
        refine ensures_mono (logPassed_lost hnot hlock) fun _ s' hlost => ?_
        rcases hlost with ⟨_, _, hsent⟩
        refine ⟨fun hstored => ?_, fun hsink => ?_⟩
        · rcases hstored with ⟨r, _, hstored⟩
          -- Nothing was sent, but the line of a record is never empty.
          rw [← hstill.sent, ← hstill.world, hlock, hsent] at hstored
          rcases hstored with hwritten | ⟨hfree, _⟩
          · rw [waiting, List.append_nil] at hwritten
            exact absurd (List.self_eq_append_right.1 hwritten) (utf8_line_ne_nil r)
          · exact absurd hfree Bool.false_ne_true
        · rcases hsink with ⟨c, hfree⟩ | hfree
          · exact absurd hfree (hnot c)
          · rw [hlock] at hfree
            exact absurd hfree Bool.false_ne_true

/-- A record that passes is stored just if its log call finds the console or the
    backlog free, wherever the call is made and whatever runs meanwhile. Whatever
    runs later, the backlog is accounted for: it is written out as a whole, and
    nothing but newer lines pushes anything out of it. -/
theorem log_stored_iff (hw : Handler Hardware σ) (fuel : Nat) {call : LogCall σ}
    {s s' : Journaled σ} {r : Result} (hpasses : Passes s.1 call.level)
    (hrun : Journaled.perform hw fuel (.log call.level call.target call.message) s = .ok (r, s')) :
    (call.Stored s s' ↔ HasSink s.1) ∧
      ∀ fuel' ops results s'', Journaled.performAll hw fuel' ops s' = .ok (results, s'') →
        Accounted s' s'' := by
  refine ⟨?_, fun fuel' ops results s'' => performAll_accounted hw fuel' ops⟩
  cases fuel with
  | zero => exact nomatch hrun
  | succ fuel =>
      rcases bind_eq_ok.1 hrun with ⟨⟨v, t⟩, hprogram, hend⟩
      cases hend
      let start : Journaled σ := (s.1, .enter (.log call.level call.target call.message) :: s.2)
      have hasking : asking start.2 = some call := rfl
      -- The call itself is only noted before that.
      have hlog : (Op.program (.log call.level call.target call.message)).Ensures
          (Journaled.respond hw (Journaled.perform hw fuel)) (fuel + 1) start
          fun _ s' => call.Stored start s' ↔ HasSink start.1 :=
        ensures_bind (ensures_mono (log_stored (nests_perform hw fuel)
          (accounting_perform hw fuel) hpasses hasking) fun _ _ h => ensures_pure h)
      exact hlog v t hprogram

/-- A kernel with a logger and without a console. -/
def loggerOnly : Journaled Unit :=
  ({ machine := (), shared := { hasLogger := true, filter := .upTo .info } }, [])

theorem log_stored_before_console :
    ∃ r s', Passes loggerOnly.1 .info ∧
      Journaled.perform alwaysReady.handler 1 (.log .info "c" (.text "d" .done)) loggerOnly =
        .ok (r, s') ∧
      LogCall.Stored ⟨.info, "c", .text "d" .done⟩ loggerOnly s' := by
  have hends : (Journaled.perform alwaysReady.handler 1 (.log .info "c" (.text "d" .done))
      loggerOnly).toOption.isSome = true := by
    decide +kernel
  rcases Option.isSome_iff_exists.1 hends with ⟨⟨r, s'⟩, hsome⟩
  have hrun := eq_ok_of_toOption hsome
  let call : LogCall Unit := ⟨.info, "c", .text "d" .done⟩
  have hpasses : Passes loggerOnly.1 call.level := ⟨rfl, rfl⟩
  rcases log_stored_iff alwaysReady.handler 1 hpasses hrun with ⟨hstored, _⟩
  exact ⟨r, s', hpasses, hrun, hstored.2 (.inr rfl)⟩

/-- An interrupt logs a record while the backlog is written out. -/
def loggedWhileFlushing : List (Op Unit) :=
  [.installLogger (.upTo .info), .log .info "a" (.text "b" .done),
    .arm 40 (.log .info "c" (.text "d" .done)), .init {}, .flushDeferred]

/-- The record of the interrupt is not on the console and not in the backlog, though
    the logger lets it pass. -/
theorem logged_while_flushing_lost :
    ∃ results w journal,
      Journaled.performAll alwaysReady.handler 4 loggedWhileFlushing ({ machine := () }, []) =
        .ok (results, w, journal) ∧
      w.fired = 1 ∧ Passes w .info ∧ sent journal = utf8 "[INFO] a: b\n" ∧
      w.shared.backlog.isFree = true ∧ waiting w.shared.backlog = [] := by
  have hends : ((Journaled.performAll alwaysReady.handler 4 loggedWhileFlushing
      ({ machine := () }, [])).toOption.map fun v =>
        decide (v.2.1.fired = 1 ∧ Passes v.2.1 .info ∧ sent v.2.2 = utf8 "[INFO] a: b\n" ∧
          v.2.1.shared.backlog.isFree = true ∧ waiting v.2.1.shared.backlog = [])) = some true := by
    decide +kernel
  rcases Option.map_eq_some_iff.1 hends with ⟨⟨results, w, journal⟩, hsome, hvalues⟩
  exact ⟨results, w, journal, eq_ok_of_toOption hsome, of_decide_eq_true hvalues⟩

end Kernel

end KernelConsole
