import KernelConsole.Proofs.Kernel.Interrupts
import KernelConsole.Proofs.Kernel.Turns
import KernelConsole.Proofs.Settings

/-!
# Refused Settings in a Run

Bringing up the console looks whether there is one already, and then at the settings, before
it touches anything. So a call whose settings are refused leaves no trace: it makes no access,
which means that no interrupt comes in it either, and nobody can tell from the world
afterwards that it was made. Whether it fails is not a matter of the settings alone, since
once there is a console every call succeeds.

What other operations do does not hang on what was noted before them, only on the world they
start in. So a run without the calls that fail in it is the whole run with their turns left
out, moment by moment. Nothing is assumed of what the operations are or run inside.

## Main definitions

* `Kernel.Op.refuses`, `Kernel.Turn.refused`: The settings of a call are refused.
* `Kernel.refusal`: The journal of such a call.
* `Kernel.Journaled.unrefused`: The operations of a run without such calls.
* `Kernel.Turn.Same`: Two turns that are the same but for what was before them.
* `Kernel.LeaveNoTrace`: What is said of such calls in a run.

## Theorems

* `Kernel.perform_refused_iff`: When settings are refused, and what is left then.
* `Kernel.turns_unrefused`: A run without the calls whose settings are refused.
* `Kernel.settings_checked_first`: The check of the settings, and a run with it.
-/

namespace KernelConsole

namespace Kernel

open Prog

variable {σ : Type}

/-- The operation is a call that brings up no console, since its settings are refused. -/
def Op.refuses : Op σ → Result → Bool
  | .init _, .settled (.error _) => true
  | _, _ => false

/-- The turn is a call that brings up no console, since its settings are refused. -/
def Turn.refused (x : Turn σ) : Bool := x.op.refuses x.result

/-- The journal after settings were refused: it was asked whether a console is there, and
    nothing else. -/
def refusal (settings : Settings) (fault : Settings.Fault) (before : List (Moment σ)) :
    List (Moment σ) :=
  .leave (.init settings) (.settled (.error fault)) :: .service .isInstalled false ::
    .enter (.init settings) :: before

/-- The operations that are left of a run without the calls in it whose settings are
    refused. -/
def Journaled.unrefused (hw : Handler Hardware σ) (fuel : Nat) :
    List (Op σ) → Journaled σ → List (Op σ)
  | [], _ => []
  | op :: rest, s => match Journaled.perform hw fuel op s with
    | .error _ => op :: rest
    | .ok (result, after) =>
        if op.refuses result then unrefused hw fuel rest after
        else op :: unrefused hw fuel rest after

/-- Two turns are the same, moment by moment. What was noted before them may differ. -/
structure Turn.Same (x y : Turn σ) : Prop where
  op : x.op = y.op
  result : x.result = y.result
  before : x.before.1 = y.before.1
  after : x.after.1 = y.after.1
  /-- The same accesses are made and the same requests are answered in the same way. -/
  moments : ∃ new, x.after.2 = new ++ x.before.2 ∧ y.after.2 = new ++ y.before.2

section Refusals

variable {hw : Handler Hardware σ}
  {perform : Op σ → Journaled σ → Except Halt (Result × Journaled σ)} {fuel : Nat}

/-- Settings are refused only where no console is there, and before anything is done. -/
theorem init_refused (settings : Settings) (s : Journaled σ) :
    (init settings).Ensures (Journaled.respond hw perform) fuel s fun outcome s' =>
      ∀ fault, outcome = .error fault → settings.validate = .error fault ∧
        installed s.1 = false ∧ s' = (s.1, .service .isInstalled false :: s.2) := by
  unfold init
  refine ensures_bind (ensures_call fun v s₁ hreply => ensures_done ?_)
  cases hreply
  by_cases hinstalled : s.1.shared.console.isSome = true
  · rw [if_pos hinstalled]
    exact ensures_pure nofun
  rw [if_neg hinstalled]
  cases hmade : Console.ofSettings settings with
  | error first =>
      refine ensures_pure fun fault hfault => ?_
      cases hfault
      have hnone : s.1.shared.console.isSome = false := Bool.eq_false_iff.2 hinstalled
      refine ⟨Console.ofSettings_eq_error_iff.1 hmade, hnone, ?_⟩
      rw [hnone]
  | ok c =>
      -- Once the devices have been brought up, nothing is refused any more.
      refine ensures_bind fun c s₂ _ => ensures_bind fun _ s₃ _ => ensures_bind fun _ s₄ _ => ?_
      exact ensures_pure nofun

/-- Settings are refused exactly if they do not pass the check and no console is installed
    yet, and everything is left as it was. -/
theorem perform_refused_iff {settings : Settings} {fault : Settings.Fault} {s s' : Journaled σ} :
    Journaled.perform hw (fuel + 1) (.init settings) s = .ok (.settled (.error fault), s') ↔
      settings.validate = .error fault ∧ installed s.1 = false ∧
        s' = (s.1, refusal settings fault s.2) := by
  constructor
  · intro hrun
    rcases bind_eq_ok.1 hrun with ⟨⟨r, t⟩, hprogram, hend⟩
    cases hend
    obtain ⟨hvalid, hnone, hstate⟩ := ensures_map (f := Result.settled)
      (Q := fun r t => ∀ fault, r = .settled (.error fault) →
        settings.validate = .error fault ∧ installed s.1 = false ∧
          t = (s.1, .service .isInstalled false :: .enter (.init settings) :: s.2))
      (ensures_mono (init_refused settings (s.1, .enter (.init settings) :: s.2))
        fun _ _ h fault houtcome => h fault (Result.settled.inj houtcome))
      _ _ hprogram fault rfl
    rw [hstate]
    exact ⟨hvalid, hnone, rfl⟩
  · rintro ⟨hvalid, hnone, rfl⟩
    have hconsole : s.1.shared.console.isSome = false := hnone
    have hmade := Console.ofSettings_eq_error_iff.2 hvalid
    rw [Journaled.perform, Op.program, map_eq_pure_bind, run_bind, init, run_bind]
    simp only [service, run, Journaled.respond, Shared.respond, Except.bind, hconsole, hmade]
    rfl

theorem eq_init_of_refuses {op : Op σ} {result : Result} (h : op.refuses result = true) :
    ∃ settings fault, op = .init settings ∧ result = .settled (.error fault) := by
  unfold Op.refuses at h
  split at h
  · exact ⟨_, _, rfl, rfl⟩
  · cases h

/-- A call that refuses leaves everything as it was. -/
theorem perform_refuses {op : Op σ} {s s' : Journaled σ} {result : Result}
    (hrun : Journaled.perform hw fuel op s = .ok (result, s')) (h : op.refuses result = true) :
    s'.1 = s.1 ∧ accesses s'.2 = accesses s.2 := by
  rcases eq_init_of_refuses h with ⟨settings, fault, rfl, rfl⟩
  cases fuel with
  | zero => cases hrun
  | succ fuel =>
      obtain ⟨_, _, rfl⟩ := perform_refused_iff.1 hrun
      exact ⟨rfl, rfl⟩

/-- The turns of a run without the calls whose settings are refused are the other turns of
    the whole run. -/
theorem turns_unrefused (ops : List (Op σ)) {s t : Journaled σ} (hst : s.1 = t.1) :
    List.Forall₂ Turn.Same (Journaled.turns hw fuel (Journaled.unrefused hw fuel ops s) t)
      ((Journaled.turns hw fuel ops s).filter fun x => !x.refused) := by
  induction ops generalizing s t with
  | nil => exact .nil
  | cons op rest ih =>
      unfold Journaled.unrefused
      have hs := Journaled.perform_eq hw fuel op s
      have ht := Journaled.perform_eq hw fuel op t
      rw [← hst] at ht
      cases hrun : Journaled.perform hw fuel op (s.1, []) with
      | error why =>
          rw [hrun] at hs ht
          simp only [Journaled.turns, hs, ht, Except.bind]
          exact .nil
      | ok v =>
          rw [hrun] at hs ht
          simp only [Journaled.turns, hs, Except.bind]
          cases hrefuses : op.refuses v.1 with
          -- This call is left out, and the next one finds the same world without it.
          | true =>
              rw [List.filter_cons_of_neg (by simp only [Turn.refused, hrefuses]; decide)]
              have hworld := (perform_refuses hs hrefuses).1
              exact ih (hworld.trans hst)
          -- This one stays, and is the same turn on both sides but for what was noted before.
          | false =>
              rw [List.filter_cons_of_pos (by simp only [Turn.refused, hrefuses]; decide)]
              simp only [Bool.false_eq_true, if_false, Journaled.turns, ht, Except.bind]
              exact .cons ⟨rfl, rfl, hst.symm, rfl, v.2.2, rfl, rfl⟩ (ih rfl)

end Refusals

/-- Calls whose settings are refused leave no trace in a run. -/
structure LeaveNoTrace (hw : Handler Hardware σ) (fuel : Nat) (ops : List (Op σ))
    (start : Journaled σ) : Prop where
  /-- They make no access, and leave the console, the backlog, the logger and all else. -/
  untouched : ∀ x ∈ Journaled.turns hw fuel ops start, x.refused = true →
    x.after.1 = x.before.1 ∧ accesses x.after.2 = accesses x.before.2
  /-- Without them the others return the same and do the same, moment by moment. -/
  others : List.Forall₂ Turn.Same
    (Journaled.turns hw fuel (Journaled.unrefused hw fuel ops start) start)
    ((Journaled.turns hw fuel ops start).filter fun x => !x.refused)

/-- The check of the settings accepts exactly those the hardware can honour, and reports the
    first fault of all others. Bringing up the console with settings that do not pass fails
    with that fault exactly if no console is installed yet, and leaves no trace in any run. -/
theorem settings_checked_first :
    (∀ s : Settings, s.CheckedExactly) ∧
      ∀ {σ : Type} (hw : Handler Hardware σ) (fuel : Nat),
        (∀ settings fault (s s' : Journaled σ),
          Journaled.perform hw (fuel + 1) (.init settings) s =
              .ok (.settled (.error fault), s') ↔
            settings.validate = .error fault ∧ installed s.1 = false ∧
              s' = (s.1, refusal settings fault s.2)) ∧
        ∀ (ops : List (Op σ)) (start : Journaled σ), LeaveNoTrace hw fuel ops start := by
  refine ⟨Settings.checkedExactly, fun hw fuel => ⟨fun _ _ _ _ => perform_refused_iff, ?_⟩⟩
  intro ops start
  refine ⟨fun x hx hrefused => ?_, turns_unrefused ops rfl⟩
  have hruns := turns_keep (K := fun _ => True) (P := fun _ => True)
    (fun _ _ _ _ => trivial) ops trivial (fun _ _ => trivial) x hx
  exact perform_refuses hruns.2.1 hrefused

/-- A console that is brought up at the fifth call, after two failed ones and a record. The
    settings of the sixth would be refused, but there is a console by then. -/
def badSettings : List (Op Unit) :=
  [.init { baud := 7000 }, .installLogger (.upTo .info), .log .info "a" (.text "b" .done),
    .init { printerBase := 0x3FC }, .init {}, .init { baud := 0 }, .output [0x41]]

theorem settings_checked_first_bad_settings :
    LeaveNoTrace alwaysReady.handler 4 badSettings ({ machine := () }, []) ∧
      (Journaled.turns alwaysReady.handler 4 badSettings ({ machine := () }, [])).map
          Turn.refused = [true, false, false, true, false, false, false] ∧
      (Journaled.turns alwaysReady.handler 4 (Journaled.unrefused alwaysReady.handler 4
          badSettings ({ machine := () }, [])) ({ machine := () }, [])).map Turn.result =
        [.flag true, .nothing, .settled (.ok ()), .settled (.ok ()), .nothing] := by
  refine ⟨(settings_checked_first.2 alwaysReady.handler 4).2 _ _, ?_, ?_⟩
  · decide +kernel
  · decide +kernel

end Kernel

end KernelConsole
