import KernelConsole.Proofs.Kernel.LogCalls
import KernelConsole.Proofs.Kernel.Turns

/-!
# When the Backlog Is Written Out

What waits in the backlog should go to the console as soon as that is free. Almost
every operation sees to this itself: it writes out the backlog last, after it has
put the console back. A log call is the exception. It writes out the backlog first
and its own line after that, and what is logged while it writes that line stays in
the backlog until somebody else comes.

So after an operation that writes out the backlog nothing is left, whatever ran
meanwhile. Nothing is left after any operation at all just if no line goes into the
backlog during a log call.

## Main definitions

* `Kernel.kept`: The log calls whose lines went into the backlog.
* `Kernel.Turn.Clean`: None did during a turn.

## Theorems

* `Kernel.log_tidies`: What a log call leaves behind.
* `Kernel.written_out_between_turns`: When nothing is left between turns.
* `Kernel.logged_while_logging_waits`: A run after which something is.
-/

namespace KernelConsole

namespace Kernel

open Prog

variable {σ : Type}

/-- The log calls whose lines went into the backlog, in the order they did. -/
def kept (journal : List (Moment σ)) : List (LogCall σ) :=
  (acquired journal).filterMap fun x => match x.1 with
    | .console => none
    | .backlog => some x.2

/-- No line went into the backlog during the turn. -/
def Turn.Clean (x : Turn σ) : Prop := kept x.after.2 = kept x.before.2

theorem kept_append {j j' : List (Moment σ)} {calls : List (Sink × LogCall σ)}
    (h : acquired j' = acquired j ++ calls) :
    kept j' = kept j ++ calls.filterMap fun x => match x.1 with
      | .console => none
      | .backlog => some x.2 := by
  unfold kept
  rw [h, List.filterMap_append]

theorem filterMap_backlog (calls : List (LogCall σ)) :
    (calls.map (Prod.mk Sink.backlog)).filterMap (fun x => match x.1 with
      | .console => none
      | .backlog => some x.2) = calls := by
  rw [List.filterMap_map]
  exact List.filterMap_some

theorem WrittenOut.waiting {w : World σ} (h : WrittenOut w) : waiting w.shared.backlog = [] := by
  rcases h with ⟨b, hb, hempty⟩
  rw [hb]
  exact (Ring.isEmpty_iff b.pending).1 hempty

/-- If nothing waits in a backlog that lines went into, there were none. -/
theorem waiting_withLines {b : Backlog} (hb : b.pending.Bounded) {records : List Record}
    (hnone : waiting (withLines (.free b) records) = []) : records = [] := by
  cases records with
  | nil => rfl
  | cons r rest =>
      -- No line is empty, so the newest bytes of some lines are not none.
      exfalso
      have hcontents : (b.pending.contents ++ linesOf (r :: rest)).rtake Ring.capacity = [] := by
        rw [← (Ring.contents_pushAll Ring.wideEnough_word hb _).2]
        exact hnone
      have hlength := congrArg List.length hcontents
      have hline : 0 < (utf8 r.line).length := List.length_pos_iff.2 (utf8_line_ne_nil r)
      simp only [List.rtake, List.length_drop, List.length_append, linesOf, List.flatMap_cons,
        List.length_nil] at hlength
      have hroom : 0 < Ring.capacity := by decide
      omega

/-- A log call leaves nothing in the backlog exactly if no line went there. -/
theorem log_tidies {hw : Handler Hardware σ}
    {perform : Op σ → Journaled σ → Except Halt (Result × Journaled σ)} {fuel : Nat}
    (hnests : Nests perform) (haccounting : Accounting perform) {call : LogCall σ}
    {s : Journaled σ} (hs : Unlocked s) (hasking : asking s.2 = some call) :
    (log call.level call.target call.message.pieces).Ensures (Journaled.respond hw perform) fuel s
      fun _ s' => (WrittenOut s'.1 → kept s'.2 = kept s.2) ∧
        (kept s'.2 = kept s.2 → Tidy s.1 → Tidy s'.1) := by
  refine ensures_bind (ensures_mono logEnabled_still fun enabled s₁ ⟨hstill, _⟩ => ?_)
  have hkept : kept s₁.2 = kept s.2 := by
    unfold kept
    rw [hstill.acquired]
  by_cases henabled : enabled = true
  · rw [if_pos henabled]
    have hready : Ready s₁.1.shared.backlog := hstill.world ▸ hs.2
    have hasking₁ : asking s₁.2 = some call := hstill.asking.trans hasking
    rcases free_or_not s₁.1 with ⟨c, hfree⟩ | hnot
    · -- the line is written at once, and lines may go into the backlog meanwhile
      refine ensures_mono (logPassed_free hnests hfree hasking₁) fun _ s' ⟨_, records, _, _,
        hbacklog, _, ⟨calls, hcalls, hmatch⟩, _⟩ => ?_
      -- Only calls that run while the line is written can have got the backlog.
      have hall : kept s'.2 = kept s.2 ++ calls := by
        rw [kept_append hcalls, List.filterMap_cons, filterMap_backlog, hkept]
      refine ⟨fun hwritten => ?_, fun hclean _ _ => ?_⟩
      · have hnone : records = [] := by
          rcases hready with ⟨b, hb, _⟩
          rw [hb] at hbacklog
          refine waiting_withLines (b := ⟨b.pending.drain.2⟩) (Ring.contents_drain _).1 ?_
          rw [← show s'.1.shared.backlog = withLines (.free ⟨b.pending.drain.2⟩) records
            from hbacklog]
          exact hwritten.waiting
        rw [hnone, List.forall₂_nil_right_iff] at hmatch
        rw [hall, hmatch, List.append_nil]
      · have hcalls' : calls = [] := by
          rw [hall] at hclean
          exact List.append_right_eq_self.1 hclean
        rw [hcalls', List.forall₂_nil_left_iff] at hmatch
        rw [hmatch, withLines_nil] at hbacklog
        exact writtenOut_emptied hready hbacklog
    · -- the line goes into the backlog itself, and stays there
      rcases hready with ⟨b, hlock, hbounded⟩
      have hbooks : ∀ op, True → ∀ t v t',
          (∃ calls, acquired t.2 = acquired s₁.2 ++ (.backlog, call) :: calls) →
          perform op t = .ok (v, t') →
          ∃ calls, acquired t'.2 = acquired s₁.2 ++ (.backlog, call) :: calls := by
        rintro op _ t v t' ⟨calls, hcalls⟩ hrun
        rcases (haccounting op t v t' hrun).1 with ⟨_, ⟨_, ⟨more, hmore, _⟩⟩, _⟩
        refine ⟨calls ++ more, ?_⟩
        rw [hmore, hcalls, List.append_assoc, List.cons_append]
      refine ensures_mono (logPassed_kept hnot hlock hbooks call.message.each_true
        ⟨[], acquired_seized b hasking₁⟩) fun _ s' ⟨r, t, _, ⟨calls, hcalls⟩, hworld,
          hacquired, _⟩ => ?_
      rw [← hacquired] at hcalls
      refine ⟨fun hwritten => ?_, fun hclean => ?_⟩
      · have hline : [r] = [] := by
          refine waiting_withLines hbounded ?_
          rw [← show s'.1.shared.backlog = withLines (.free b) [r] by rw [hworld]]
          exact hwritten.waiting
        cases hline
      · rw [kept_append hcalls, hkept] at hclean
        cases List.append_right_eq_self.1 hclean
  · rw [if_neg henabled]
    -- the record does not pass, and nothing happens
    refine ensures_pure ⟨fun _ => hkept, fun _ htidy => ?_⟩
    rw [hstill.world]
    exact htidy

/-- A log call leaves nothing behind just if no line goes into the backlog during its
    turn, supposing that nothing was left before. -/
theorem Turn.Runs.log_tidies {hw : Handler Hardware σ} {fuel : Nat} {x : Turn σ}
    (hx : x.Runs hw fuel) (hlog : x.op.IsLog) (hbefore : Unlocked x.before) :
    (WrittenOut x.after.1 → x.Clean) ∧ (x.Clean → Tidy x.before.1 → Tidy x.after.1) := by
  rcases x with ⟨op, s, r, s'⟩
  cases op with
  | log level target message =>
      -- A log call that returned had fuel.
      cases fuel with
      | zero => exact nomatch hx
      | succ fuel =>
          have hrun : Journaled.perform hw (fuel + 1) (.log level target message) s =
              .ok (r, s') := hx
          rcases bind_eq_ok.1 hrun with ⟨⟨v, t⟩, hprogram, hend⟩
          cases hend
          let start : Journaled σ := (s.1, .enter (.log level target message) :: s.2)
          have hasking : asking start.2 = some ⟨level, target, message⟩ := rfl
          have hstart : Unlocked start := hbefore
          have htidies : (Op.program (.log level target message)).Ensures
              (Journaled.respond hw (Journaled.perform hw fuel)) (fuel + 1) start fun _ s' =>
                (WrittenOut s'.1 → kept s'.2 = kept start.2) ∧
                  (kept s'.2 = kept start.2 → Tidy start.1 → Tidy s'.1) :=
            ensures_bind (ensures_mono (Kernel.log_tidies (nests_perform hw fuel)
              (accounting_perform hw fuel) hstart hasking) fun _ _ h => ensures_pure h)
          exact htidies v t hprogram
  | _ => exact absurd hlog not_false

/-- Whatever else an operation does, it leaves nothing behind that was not there
    before, supposing it is no log call. -/
theorem Turn.Runs.tidies {hw : Handler Hardware σ} {fuel : Nat} {x : Turn σ}
    (hx : x.Runs hw fuel) (hlog : ¬ x.op.IsLog) (hbefore : Unlocked x.before)
    (htidy : Tidy x.before.1) : Tidy x.after.1 := by
  rcases hbefore with ⟨hunheld, hready⟩
  have hreleases := perform_releases hunheld hx
  by_cases hwrites : x.op.WritesOut x.before.1
  · exact hreleases.tidy hwrites hready
  · -- The locks are as they were, so what was left then is left now.
    rcases hreleases.same hlog hwrites with ⟨hconsole, hbacklog⟩
    unfold Tidy installed WrittenOut
    rw [hconsole, hbacklog]
    exact htidy

/-- An operation that writes out the backlog leaves nothing in it, from whatever start
    and whatever runs in the turns before. Nothing is left after any operation just if
    no line goes into the backlog during a log call. -/
theorem written_out_between_turns (hw : Handler Hardware σ) (fuel : Nat) (machine : σ)
    (armed : List (Armed σ)) (ops : List (Op σ)) :
    let turns := Journaled.turns hw fuel ops ({ machine, armed }, [])
    (∀ x ∈ turns, x.op.WritesOut x.before.1 → Tidy x.after.1) ∧
      ((∀ x ∈ turns, Tidy x.after.1) ↔
        ∀ x ∈ turns, x.op.IsLog → installed x.after.1 = true → x.Clean) := by
  intro turns
  have hstart : Unlocked (({ machine, armed }, []) : Journaled σ) :=
    ⟨nofun, _, rfl, Ring.bounded_empty⟩
  have hunlocked : ∀ x ∈ turns,
      x.op ∈ ops ∧ x.Runs hw fuel ∧ Unlocked x.before ∧ Unlocked x.after :=
    turns_keep (P := fun _ => True) (fun x hx _ hbefore => hx.unlocked hbefore) ops hstart
      fun _ _ => trivial
  refine ⟨fun x hx hwrites => ?_, fun hall x hx hlog hinstalled => ?_, fun hclean => ?_⟩
  · rcases hunlocked x hx with ⟨_, hruns, ⟨hunheld, hready⟩, _⟩
    exact (perform_releases hunheld hruns).tidy hwrites hready
  · rcases hunlocked x hx with ⟨_, hruns, hbefore, _⟩
    exact (hruns.log_tidies hlog hbefore).1 (hall x hx hinstalled)
  · -- By induction on the turns: at the start there is no console and nothing is left.
    have hfirst : Tidy (({ machine, armed }, []) : Journaled σ).1 := tidy_none rfl
    have hstep : ∀ x : Turn σ, x.Runs hw fuel →
        (x.op.IsLog → installed x.after.1 = true → x.Clean) →
        Unlocked x.before ∧ Tidy x.before.1 → Unlocked x.after ∧ Tidy x.after.1 := by
      intro x hx hclean ⟨hbefore, htidy⟩
      refine ⟨hx.unlocked hbefore, fun hinstalled => ?_⟩
      by_cases hlog : x.op.IsLog
      · exact (hx.log_tidies hlog hbefore).2 (hclean hlog hinstalled) htidy hinstalled
      · exact hx.tidies hlog hbefore htidy hinstalled
    intro x hx
    have hkeep := turns_keep (K := fun s => Unlocked s ∧ Tidy s.1) hstep ops ⟨hstart, hfirst⟩
      hclean x hx
    exact hkeep.2.2.2.2

/-- A record is logged by the code in the message of another one. -/
def loggedWhileLogging : List (Op Unit) :=
  [.installLogger (.upTo .info), .init {},
    .log .info "a" (.code (.log .info "c" (.text "d" .done)) (fun _ => "") (.text "b" .done))]

/-- When the log call returns, the console is free and the line of the other record is
    still in the backlog. -/
theorem logged_while_logging_waits :
    ∃ results w journal,
      Journaled.performAll alwaysReady.handler 4 loggedWhileLogging ({ machine := () }, []) =
        .ok (results, w, journal) ∧
      installed w = true ∧ ¬ WrittenOut w ∧ waiting w.shared.backlog = utf8 "[INFO] c: d\n" ∧
      sent journal = utf8 "[INFO] a: b\n" := by
  have hends : ((Journaled.performAll alwaysReady.handler 4 loggedWhileLogging
      ({ machine := () }, [])).toOption.map fun v =>
        decide (installed v.2.1 = true ∧ waiting v.2.1.shared.backlog = utf8 "[INFO] c: d\n" ∧
          sent v.2.2 = utf8 "[INFO] a: b\n")) = some true := by
    decide +kernel
  rcases Option.map_eq_some_iff.1 hends with ⟨⟨results, w, journal⟩, hsome, hvalues⟩
  rcases of_decide_eq_true hvalues with ⟨hinstalled, hwaiting, hsent⟩
  refine ⟨results, w, journal, eq_ok_of_toOption hsome, hinstalled, fun hwritten => ?_,
    hwaiting, hsent⟩
  have hline : utf8 "[INFO] c: d\n" = [] := hwaiting.symm.trans hwritten.waiting
  exact absurd hline (by decide)

end Kernel

end KernelConsole
