import KernelConsole.Proofs.Kernel.Nesting

/-!
# Holding the Console

What kernel code does while it holds the console. The drivers run with interrupts
before their accesses and with a logger for their reports, but all that these can
do is to leave lines in the backlog. So what is sent while the console is held is
what the drivers send, and it is sent in one piece.

While the backlog is written out it is held too, and not even lines are left.

## Main definitions

* `Handler.logging`: A kernel as seen by a driver.
* `Kernel.Kept`: Nothing but lines was left behind since.
* `Kernel.waiting`, `Kernel.emptied`: The backlog before and after it is written
  out.

## Theorems

* `Kernel.hears_barred`: Drivers count on it that what they send is all that is
  sent.
* `Kernel.flushOnto_held`: Writing out the backlog.
* `Kernel.writeLine_held`: Writing the line of a record.
* `Kernel.logPassed_free`: Logging to a console that is free.
-/

namespace KernelConsole

/-- Answers a driver as kernel code is answered. Its reports are log calls. -/
def Handler.logging {σ S : Type} (h : Handler (Kernel.Calls σ) S) : Handler Reporting S
  | .access a, s => h (.access a) s
  | .report r, s =>
      (h (.call (.log r.level r.target (.text r.message .done))) s).bind fun v => .ok ((), v.2)

namespace Kernel

open Prog

variable {σ S α : Type}

/-- Driver code runs in the kernel as it does by itself, with its reports answered by log
    calls. -/
theorem run_withLogger {h : Handler (Calls σ) S} {fuel : Nat} (p : LoggedIo α) (s : S) :
    p.withLogger.run h fuel s = p.run h.logging fuel s := by
  -- A report is answered by the log call that stands for it.
  refine run_interpret serve h h.logging fuel (fun r t => ?_) p s
  cases r with
  | access a =>
      change (h (.access a) t).bind _ = h (.access a) t
      cases h (.access a) t <;> rfl
  | report r => rfl

theorem run_lifted {h : Handler (Calls σ) S} {fuel : Nat} (p : Io α) (s : S) :
    (p.interpret access : KernelIo σ α).run h fuel s = p.unreported.run h.logging fuel s := by
  have hplain : ∀ a t, (access a : KernelIo σ _).run h fuel t = h (.access a) t := by
    intro a t
    change (h (.access a) t).bind _ = h (.access a) t
    cases h (.access a) t <;> rfl
  have hreported : ∀ a t, (Reporting.access a).run h.logging fuel t = h (.access a) t := by
    intro a t
    change (h (.access a) t).bind _ = h (.access a) t
    cases h (.access a) t <;> rfl
  exact (run_interpret access h _ fuel hplain p s).trans
    (run_interpret Reporting.access h.logging _ fuel hreported p s).symm

theorem ensures_withLogger {h : Handler (Calls σ) S} {fuel : Nat} {p : LoggedIo α} {s : S}
    {Q : α → S → Prop} (hp : p.Ensures h.logging fuel s Q) :
    p.withLogger.Ensures h fuel s Q := by
  intro a s' hrun
  rw [run_withLogger] at hrun
  exact hp a s' hrun

theorem ensures_lifted {h : Handler (Calls σ) S} {fuel : Nat} {p : Io α} {s : S}
    {Q : α → S → Prop} (hp : p.unreported.Ensures h.logging fuel s Q) :
    (p.interpret access : KernelIo σ α).Ensures h fuel s Q := by
  intro a s' hrun
  rw [run_lifted] at hrun
  exact hp a s' hrun

/-- Since the first moment nothing was left behind but lines in the backlog. -/
def Kept (s₀ s : Journaled σ) : Prop := ∃ records, Keeps s₀ s records

theorem Kept.refl (s : Journaled σ) : Kept s s := ⟨[], .refl s⟩

theorem Kept.barred {s₀ s : Journaled σ} (h : Kept s₀ s) (hs : Barred s₀.1) : Barred s.1 := by
  rcases h with ⟨_, hkeeps⟩
  exact hkeeps.barred hs

theorem Kept.trans {s t u : Journaled σ} (hst : Kept s t) (htu : Kept t u) : Kept s u := by
  rcases hst with ⟨_, hxs⟩
  rcases htu with ⟨_, hys⟩
  exact ⟨_, hxs.trans hys⟩

variable {hw : Handler Hardware σ}
  {perform : Op σ → Journaled σ → Except Halt (Result × Journaled σ)} {fuel : Nat}

/-- Where the console cannot be had, a driver is told the truth about what is
    sent. -/
theorem hears_barred (hnests : Nests perform) {s₀ : Journaled σ} (hs₀ : Barred s₀.1) :
    Hears (Journaled.respond hw perform).logging (Kept s₀) fun s => sent s.2 where
  access a s v s' hs hreply := by
    rcases access_keeps hnests a (hs.barred hs₀) hreply with ⟨records, hkeeps, hsent⟩
    exact ⟨hs.trans ⟨records, hkeeps⟩, hsent⟩
  report r s v s' hs hreply := by
    rcases bind_eq_ok.1 hreply with ⟨⟨_, t⟩, hcall, hend⟩
    cases hend
    have hop : (Op.log r.level r.target (.text r.message .done) : Op σ).NoInit := trivial
    rcases hnests _ _ _ _ (hs.barred hs₀) (.inr hop) hcall with ⟨records, hkeeps, hsent⟩
    exact ⟨hs.trans ⟨records, hkeeps⟩, hsent⟩

/-- Nothing gets into a backlog that is held. -/
theorem Kept.none_of_held {s₀ s : Journaled σ} (h : Kept s₀ s)
    (hheld : s₀.1.shared.backlog = .held) : Keeps s₀ s [] := by
  rcases h with ⟨records, hkeeps⟩
  have hnone : records = [] := hkeeps.free (by rw [hheld]; rfl)
  exact hnone ▸ hkeeps

theorem Keeps.acquired_nil {s₀ s : Journaled σ} (h : Keeps s₀ s []) :
    acquired s.2 = acquired s₀.2 := by
  rcases h.calls with ⟨calls, hcalls, hmatch⟩
  rw [List.forall₂_nil_right_iff] at hmatch
  rw [hcalls, hmatch, List.map_nil, List.append_nil]

/-- What waits in the backlog for whoever asks. -/
def waiting : Lock Backlog → List UInt8
  | .free b => b.pending.contents
  | .held => []

/-- The backlog once that is written out. -/
def emptied : Lock Backlog → Lock Backlog
  | .free b => .free ⟨b.pending.drain.2⟩
  | .held => .held

/-- Who holds the console writes out the backlog, if nobody holds that. Nothing else
    is sent meanwhile, and no line is left behind. -/
theorem flushOnto_held (hnests : Nests perform) (c : Console) {s : Journaled σ}
    (hheld : s.1.shared.console = some .held) (hasking : asking s.2 = none) :
    (flushOnto c).Ensures (Journaled.respond hw perform) fuel s fun _ s' =>
      s'.1.shared.console = some .held ∧ s'.1.shared.backlog = emptied s.1.shared.backlog ∧
        acquired s'.2 = acquired s.2 ∧ sent s'.2 = sent s.2 ++ waiting s.1.shared.backlog := by
  refine ensures_bind (ensures_call fun v s₁ hreply => ensures_done ?_)
  rcases tryLockBacklog_reply hreply with ⟨rfl, hlock, rfl⟩ | ⟨b, rfl, hlock, rfl⟩
  · rw [hlock]
    exact ensures_pure ⟨hheld, hlock, rfl, (List.append_nil _).symm⟩
  · rw [hlock]
    refine ensures_bind (ensures_lifted (p := b.flushInto c) (ensures_mono
      ((hears_barred hnests (.inl (by exact hheld))).flushInto b c (.refl _))
      fun v s₂ hflush => ?_))
    rcases hflush with ⟨hdrained, _, hkept, hsent⟩
    -- The backlog is held meanwhile, so what runs inside leaves nothing in it.
    have hkeeps := hkept.none_of_held rfl
    refine ensures_bind (ensures_call fun _ s₃ hreply₃ => ensures_done ?_)
    cases hreply₃
    refine ensures_pure ⟨hkeeps.console.trans hheld, congrArg Lock.free hdrained, ?_, hsent⟩
    refine hkeeps.acquired_nil.trans ?_
    simp only [acquired, hasking]
    exact List.append_nil _

/-- A piece of text is sent as it is, behind those before it. -/
theorem putConsole_held (hnests : Nests perform) {s₀ s : Journaled σ} (hs₀ : Barred s₀.1)
    {c : Console} {text : String} (piece : String)
    (hs : Kept s₀ s ∧ sent s.2 = sent s₀.2 ++ utf8 text) :
    (putConsole c piece).Ensures (Journaled.respond hw perform) fuel s fun _ s' =>
      Kept s₀ s' ∧ sent s'.2 = sent s₀.2 ++ utf8 (text ++ piece) := by
  refine ensures_lifted (ensures_mono ((hears_barred hnests hs₀).writeBytes
    (utf8 piece) c hs.1) fun _ s' ⟨_, hkept, hsent⟩ => ⟨hkept, ?_⟩)
  rw [hsent, hs.2, utf8_append, List.append_assoc]

/-- Who holds the console writes the line of a record in one piece. -/
theorem writeLine_held (hnests : Nests perform) (call : LogCall σ) (c : Console)
    {s : Journaled σ} (hheld : s.1.shared.console = some .held) :
    (writePieces putConsole (linePieces call.level call.target call.message.pieces) c).Ensures
      (Journaled.respond hw perform) fuel s fun _ s' =>
        ∃ r, call.Writes r ∧ Kept s s' ∧ sent s'.2 = sent s.2 ++ utf8 r.line := by
  refine writeLine_ensures (R := fun text _ s' => Kept s s' ∧ sent s'.2 = sent s.2 ++ utf8 text)
    (P := fun _ => True) (fun text c' s' piece hs' => putConsole_held hnests (.inl hheld) piece hs')
    ?_ call call.message.each_true ⟨.refl s, (List.append_nil _).symm⟩
  intro op _ text c' s' v s'' ⟨hkept, hsent⟩ hreply
  -- The console is still held when the message runs an operation, so that leaves lines at
  -- most.
  have hheld' : s'.1.shared.console = some .held := by
    rcases hkept with ⟨_, hbefore⟩
    exact hbefore.console.trans hheld
  rcases hnests op s' v s'' (.inl hheld') (.inl hheld') hreply with ⟨records, hkeeps, hsame⟩
  exact ⟨hkept.trans ⟨records, hkeeps⟩, hsame.trans hsent⟩

/-- A log call that finds the console free writes what waits in the backlog and the
    line of its record in one piece. What runs meanwhile can leave lines behind. -/
theorem logPassed_free (hnests : Nests perform) {call : LogCall σ} {c : Console}
    {s : Journaled σ} (hfree : s.1.shared.console = some (.free c))
    (hasking : asking s.2 = some call) :
    (logPassed call.level call.target call.message.pieces).Ensures (Journaled.respond hw perform)
      fuel s fun _ s' => ∃ r records, call.Writes r ∧
        (∃ c', s'.1.shared.console = some (.free c')) ∧
        s'.1.shared.backlog = withLines (emptied s.1.shared.backlog) records ∧
        ((emptied s.1.shared.backlog).isFree = false → records = []) ∧
        (∃ calls, acquired s'.2 = acquired s.2 ++ (.console, call) :: calls.map (Prod.mk .backlog) ∧
          List.Forall₂ LogCall.Writes calls records) ∧
        sent s'.2 = sent s.2 ++ waiting s.1.shared.backlog ++ utf8 r.line := by
  refine ensures_bind (ensures_call fun v s₁ hreply => ensures_done ?_)
  rcases tryLockConsole_free hreply hfree with ⟨rfl, rfl⟩
  -- From here on the console is held, so nobody else sends anything.
  refine ensures_bind (ensures_mono (flushOnto_held hnests c rfl rfl)
    fun c₂ s₂ ⟨hheld, hemptied, hacquired, hsent⟩ => ?_)
  refine ensures_bind (ensures_mono (writeLine_held hnests call c₂ hheld)
    fun c₃ s₃ ⟨r, hwrites, ⟨records, hkeeps⟩, hline⟩ => ?_)
  refine ensures_call fun _ s₄ hreply₄ => ensures_done ?_
  cases hreply₄
  rcases hkeeps.calls with ⟨calls, hcalls, hmatch⟩
  -- It is put back with the line written, and the lines logged meanwhile are in the backlog.
  refine ⟨r, records, hwrites, ⟨c₃, rfl⟩, ?_, ?_, ⟨calls, ?_, hmatch⟩, hline.trans ?_⟩
  · exact hkeeps.backlog.trans (congrArg (withLines · records) hemptied)
  · intro hlocked
    refine hkeeps.free ?_
    rw [hemptied]
    exact hlocked
  · refine hcalls.trans ?_
    rw [hacquired]
    simp only [taken, acquired, hasking, Option.toList_some, List.map_cons, List.map_nil,
      List.append_assoc, List.cons_append, List.nil_append]
  · rw [hsent]
    rfl

end Kernel

end KernelConsole
