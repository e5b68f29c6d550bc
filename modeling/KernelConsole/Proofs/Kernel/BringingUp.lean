import KernelConsole.Proofs.Console.Driving
import KernelConsole.Proofs.Kernel.Tallies

/-!
# Bringing Up a Console

Bringing up a console takes three steps: asking whether there is one, programming the
devices, and installing what came of it. Which operations are in the middle of that is
read off the journal, and so is whether one of them began inside another.

An operation begins in one of two situations. Either nobody can take the console, because
it is held or just being brought up; then the operation should do nothing to it, and make
no access. Or nobody uses one, because it is free, or nobody has begun to bring one up;
then that should be so again when the operation ends, and one console should have driven
the devices all the time.

## Main definitions

* `Kernel.running`, `Kernel.begun`: The operations that are running, and how many have
  begun to bring up a console.
* `Kernel.overlaps`: One of them began while another was not done.
* `Kernel.Driven`: A console drove the devices from the start.
* `Kernel.Shut`, `Kernel.Resting`: Nobody can take the console, or nobody uses one.
* `Kernel.Goes`: What an operation does in either situation.
* `Kernel.Drove`: What happens while somebody uses a console.

## Theorems

* `Kernel.begun_of_overlaps`: Where one begins inside another, two have begun.
* `Kernel.grows_perform`, `Kernel.not_overlaps_of_suffix`: What has happened stays in the
  journal.
* `Kernel.Goes.trans`, `Kernel.Drove.trans`: One stretch after the other.
* `Kernel.goes_putBack`: Taking a console and putting it back.
-/

namespace KernelConsole

namespace Kernel

open Prog

variable {σ α : Type}

/-- The operation brings up a console if there is none. With settings that are refused it
    does not. -/
def Op.bringsUp : Op σ → Bool
  | .init settings => (Console.ofSettings settings).toOption.isSome
  | _ => false

/-- The operations that are running, innermost first, and whether each is bringing up a
    console: it has found none, and has not installed its own. -/
def running : List (Moment σ) → List (Op σ × Bool)
  | [] => []
  | .enter op :: before => (op, false) :: running before
  | .leave _ _ :: before => (running before).tail
  | .service .isInstalled false :: before =>
      (running before).modifyHead fun x => (x.1, x.1.bringsUp)
  | .service (.install _) _ :: before => (running before).modifyHead fun x => (x.1, false)
  | _ :: before => running before

/-- Some operation is bringing up a console. -/
def raising (journal : List (Moment σ)) : Bool := (running journal).any Prod.snd

/-- At the last moment an operation began to bring up a console. -/
def begins : List (Moment σ) → Bool
  | .service .isInstalled false :: before => (running before).head?.any fun x => x.1.bringsUp
  | _ => false

/-- How many operations have begun to bring up a console. -/
def begun : List (Moment σ) → Nat
  | [] => 0
  | m :: before => begun before + if begins (m :: before) then 1 else 0

/-- An operation began to bring up a console while another, in which it runs, was bringing
    up one. -/
def overlaps : List (Moment σ) → Bool
  | [] => false
  | m :: before => overlaps before || begins (m :: before) && (running before).tail.any Prod.snd

/-- All accesses are those of one console, which is `c` now. It was made from accepted
    settings and brought up once. When it was installed it had in its queue the byte of every
    key that had come in, as far as there is room for it. -/
def Driven (journal : List (Moment σ)) (c : Console) : Prop :=
  ∃ settings c₀ c₁ before after later fuel, Console.ofSettings settings = .ok c₀ ∧
    journal = after ++ .service (.install c₁) () :: before ∧
    accesses journal = accesses before ++ later ∧
    Told (c₀.init.run replaying.observed fuel) (accesses before) c₁ ∧
    c₁.queue.contents = (keysIn (accesses before).reverse).rtake Ring.capacity ∧
    c₁.AccountsFor later c

section Journals

/-- Where an operation is bringing up a console, one has begun to. -/
theorem begun_of_raising {journal : List (Moment σ)} (h : raising journal = true) :
    1 ≤ begun journal := by
  induction journal with
  | nil => cases h
  | cons m before ih =>
      have hle : begun before ≤ begun (m :: before) := Nat.le_add_right _ _
      cases m with
      -- Most moments change neither who is running nor who has begun.
      | access e => exact (ih h).trans hle
      | enter op => exact (ih h).trans hle
      | leave op result =>
          refine (ih ?_).trans hle
          rcases List.any_eq_true.1 h with ⟨x, hx, hflag⟩
          exact List.any_eq_true.2 ⟨x, List.mem_of_mem_tail hx, hflag⟩
      | service r reply =>
          cases r with
          | isInstalled =>
              cases reply with
              | true => exact (ih h).trans hle
              | false =>
                  simp only [raising, running] at h
                  cases hrunning : running before with
                  | nil =>
                      rw [hrunning] at h
                      cases h
                  | cons x rest =>
                      rw [hrunning, List.modifyHead_cons, List.any_cons, Bool.or_eq_true] at h
                      -- It is the operation that is asking, or one around it.
                      rcases h with hbegins | hrest
                      · have hyes : begins (.service .isInstalled false :: before) = true := by
                          rw [begins, hrunning]
                          exact hbegins
                        rw [begun, if_pos hyes]
                        exact Nat.le_add_left _ _
                      · refine (ih ?_).trans hle
                        rw [raising, hrunning, List.any_cons, hrest, Bool.or_true]
          | install c =>
              refine (ih ?_).trans hle
              simp only [raising, running] at h ⊢
              cases hrunning : running before with
              | nil =>
                  rw [hrunning] at h
                  cases h
              | cons x rest =>
                  rw [hrunning, List.modifyHead_cons, List.any_cons, Bool.false_or] at h
                  rw [List.any_cons, h, Bool.or_true]
          | _ => exact (ih h).trans hle

/-- Where one operation begins to bring up a console inside another that does, two have
    begun. -/
theorem begun_of_overlaps {journal : List (Moment σ)} (h : overlaps journal = true) :
    2 ≤ begun journal := by
  induction journal with
  | nil => cases h
  | cons m before ih =>
      rw [overlaps, Bool.or_eq_true, Bool.and_eq_true] at h
      rcases h with hbefore | ⟨hbegins, htail⟩
      · exact (ih hbefore).trans (Nat.le_add_right _ _)
      · have hraising : raising before = true := by
          rcases List.any_eq_true.1 htail with ⟨x, hx, hflag⟩
          exact List.any_eq_true.2 ⟨x, List.mem_of_mem_tail hx, hflag⟩
        -- The outer one had begun before, and the inner one begins now.
        have hone := begun_of_raising hraising
        rw [begun, if_pos hbegins]
        omega

/-- What overlapped stays so, whatever happens later. -/
theorem overlaps_mono {before journal : List (Moment σ)} (hsuffix : before <:+ journal)
    (hbefore : overlaps before = true) : overlaps journal = true := by
  rcases hsuffix with ⟨after, rfl⟩
  induction after with
  | nil => exact hbefore
  | cons m after ih => rw [List.cons_append, overlaps, ih, Bool.true_or]

theorem not_overlaps_of_suffix {before journal : List (Moment σ)} (hsuffix : before <:+ journal)
    (h : overlaps journal = false) : overlaps before = false := by
  cases hbefore : overlaps before with
  | false => rfl
  | true => exact absurd (overlaps_mono hsuffix hbefore) (by rw [h]; exact Bool.false_ne_true)

end Journals

section Running

variable {journal : List (Moment σ)} {op : Op σ} {rest : List (Op σ × Bool)}

/-- What the journal says once an operation has found no console. -/
theorem running_found_none (h : running journal = (op, false) :: rest) :
    running (.service .isInstalled false :: journal) = (op, op.bringsUp) :: rest ∧
      begun (.service .isInstalled false :: journal) =
        begun journal + (if op.bringsUp then 1 else 0) ∧
      overlaps (.service .isInstalled false :: journal) =
        (overlaps journal || op.bringsUp && rest.any Prod.snd) := by
  have hbegins : begins (.service .isInstalled false :: journal) = op.bringsUp := by
    rw [begins, h]
    rfl
  refine ⟨?_, ?_, ?_⟩
  · rw [running, h]
    rfl
  · rw [begun, hbegins]
  · rw [overlaps, hbegins, h]
    rfl

/-- Who has installed its console is not bringing up one any more. -/
theorem running_installed (c : Console) {b : Bool} (h : running journal = (op, b) :: rest) :
    running (.service (.install c) () :: journal) = (op, false) :: rest := by
  rw [running, h]
  rfl

end Running

section Growing

variable {hw : Handler Hardware σ}
  {perform : Op σ → Journaled σ → Except Halt (Result × Journaled σ)}

/-- What has happened stays in the journal. -/
def Grows (perform : Op σ → Journaled σ → Except Halt (Result × Journaled σ)) : Prop :=
  ∀ op s r s', perform op s = .ok (r, s') → s.2 <:+ s'.2

/-- Operations called one after the other only add to the journal. -/
theorem runAll_grows (hgrows : Grows perform) (ops : List (Op σ)) {s s' : Journaled σ}
    (hrun : Journaled.runAll perform ops s = .ok s') : s.2 <:+ s'.2 := by
  induction ops generalizing s with
  | nil =>
      cases hrun
      exact List.suffix_rfl
  | cons op rest ih =>
      rcases bind_eq_ok.1 hrun with ⟨⟨r, t⟩, hfirst, hrest⟩
      exact (hgrows op s r t hfirst).trans (ih hrest)

theorem interrupts_grow (hgrows : Grows perform) (a : Access) {s s' : Journaled σ}
    (hrun : Journaled.interrupts perform a s = .ok s') : s.2 <:+ s'.2 := by
  unfold Journaled.interrupts at hrun
  by_cases hport : a.isPort
  · rw [if_pos hport] at hrun
    exact runAll_grows (s := (s.1.tick.2, s.2)) hgrows _ hrun
  · rw [if_neg hport] at hrun
    cases hrun
    exact List.suffix_rfl

theorem respond_grows (hgrows : Grows perform) (r : (Calls σ).Request) {s s' : Journaled σ}
    {v : Reply r} (hrun : Journaled.respond hw perform r s = .ok (v, s')) : s.2 <:+ s'.2 := by
  cases r with
  | access a =>
      rcases bind_eq_ok.1 hrun with ⟨t, hinterrupts, hrest⟩
      rcases bind_eq_ok.1 hrest with ⟨_, _, hend⟩
      cases hend
      exact (interrupts_grow hgrows a hinterrupts).trans (List.suffix_cons _ _)
  | service r =>
      rcases bind_eq_ok.1 hrun with ⟨_, _, hend⟩
      cases hend
      exact List.suffix_cons _ _
  | call op => exact hgrows op s v s' hrun
  | arm countdown op =>
      cases hrun
      exact List.suffix_rfl
  | outside act =>
      cases hrun
      exact List.suffix_rfl

theorem grows_perform (hw : Handler Hardware σ) (fuel : Nat) :
    Grows (Journaled.perform hw fuel) := by
  induction fuel with
  | zero => exact fun op s r s' hrun => nomatch hrun
  | succ fuel ih =>
      intro op s r s' hrun
      rcases bind_eq_ok.1 hrun with ⟨⟨v, t⟩, hprogram, hend⟩
      have ht : (Moment.enter op :: s.2) <:+ t.2 :=
        (only_true op.program).ensures
          (K := fun t : Journaled σ => (Moment.enter op :: s.2) <:+ t.2)
          (fun r _ u hu v u' hreply => hu.trans (respond_grows ih r hreply)) List.suffix_rfl
          v t hprogram
      cases hend
      exact ((List.suffix_cons _ _).trans ht).trans (List.suffix_cons _ _)

theorem performAll_grows (hw : Handler Hardware σ) (fuel : Nat) (ops : List (Op σ))
    {s s' : Journaled σ} {results : List Result}
    (hrun : Journaled.performAll hw fuel ops s = .ok (results, s')) : s.2 <:+ s'.2 := by
  induction ops generalizing s results with
  | nil =>
      cases hrun
      exact List.suffix_rfl
  | cons op rest ih =>
      rcases bind_eq_ok.1 hrun with ⟨⟨r, t⟩, hfirst, hothers⟩
      rcases bind_eq_ok.1 hothers with ⟨⟨rs, u⟩, hrest, hend⟩
      cases hend
      exact (grows_perform hw fuel op s r t hfirst).trans (ih hrest)

end Growing

/-- From one moment to another the console stays where it is, and the same operations are
    running. -/
structure Steady (s s' : Journaled σ) : Prop where
  grows : s.2 <:+ s'.2
  console : s'.1.shared.console = s.1.shared.console
  running : running s'.2 = running s.2
  begun : begun s'.2 = begun s.2

/-- Moreover no device is accessed. -/
structure Quiet (s s' : Journaled σ) : Prop extends Steady s s' where
  accesses : accesses s'.2 = accesses s.2

/-- Nobody can take the console: somebody holds it, or is just bringing it up. -/
def Shut (s : Journaled σ) : Prop :=
  s.1.shared.console = some .held ∨ s.1.shared.console = none ∧ raising s.2 = true

/-- Nobody has begun to bring up a console. -/
structure Unraised (s : Journaled σ) : Prop where
  console : s.1.shared.console = none
  begun : begun s.2 = 0
  idle : raising s.2 = false
  accesses : accesses s.2 = []

/-- One console was brought up, and nobody holds it. -/
structure Raised (s : Journaled σ) (c : Console) : Prop where
  console : s.1.shared.console = some (.free c)
  begun : begun s.2 = 1
  idle : raising s.2 = false
  driven : Driven s.2 c

/-- Nobody uses a console: there is none, or it is free. -/
def Resting (s : Journaled σ) : Prop := Unraised s ∨ ∃ c, Raised s c

/-- While nobody can take the console, nothing happens to it. While nobody uses one, that
    is so again in the end. -/
structure Goes (s s' : Journaled σ) : Prop where
  grows : s.2 <:+ s'.2
  shut : Shut s → Quiet s s'
  resting : Resting s → Resting s' ∧ running s'.2 = running s.2

/-- A console drove the devices, and nobody else did. -/
structure Drove (c : Console) (s : Journaled σ) (d : Console) (s' : Journaled σ) : Prop
    extends Steady s s' where
  accounts : ∃ es, accesses s'.2 = accesses s.2 ++ es ∧ c.AccountsFor es d

theorem Steady.refl (s : Journaled σ) : Steady s s := ⟨List.suffix_rfl, rfl, rfl, rfl⟩

theorem Steady.trans {s t u : Journaled σ} (hst : Steady s t) (htu : Steady t u) : Steady s u where
  grows := hst.grows.trans htu.grows
  console := htu.console.trans hst.console
  running := htu.running.trans hst.running
  begun := htu.begun.trans hst.begun

theorem Quiet.refl (s : Journaled σ) : Quiet s s := ⟨.refl s, rfl⟩

theorem Quiet.trans {s t u : Journaled σ} (hst : Quiet s t) (htu : Quiet t u) : Quiet s u :=
  ⟨hst.toSteady.trans htu.toSteady, htu.accesses.trans hst.accesses⟩

theorem Steady.raising {s s' : Journaled σ} (h : Steady s s') : raising s'.2 = raising s.2 :=
  congrArg (List.any · Prod.snd) h.running

/-- A console that nobody can take stays so while it is let alone. -/
theorem Steady.shut {s s' : Journaled σ} (h : Steady s s') (hs : Shut s) : Shut s' := by
  rcases hs with hheld | ⟨hnone, hraising⟩
  · exact .inl (h.console.trans hheld)
  · exact .inr ⟨h.console.trans hnone, h.raising.trans hraising⟩

/-- A console that nobody can take does not lie free. -/
theorem Shut.not_free {s : Journaled σ} (h : Shut s) (c : Console) :
    s.1.shared.console ≠ some (.free c) := by
  rcases h with hheld | ⟨hnone, _⟩
  · rw [hheld]
    exact nofun
  · rw [hnone]
    exact nofun

/-- The console goes on driving the devices. -/
theorem Driven.later {journal journal' : List (Moment σ)} {c d : Console} {es : List Event}
    (h : Driven journal c) (hgrows : journal <:+ journal')
    (haccesses : accesses journal' = accesses journal ++ es)
    (haccounts : c.AccountsFor es d) : Driven journal' d := by
  rcases h with ⟨settings, c₀, c₁, before, after, later, fuel, hsettings, hinstall, hsplit, hup,
    hqueue, hsince⟩
  rcases hgrows with ⟨new, rfl⟩
  -- It was installed as before, and the new events are accounted for after the old ones.
  refine ⟨settings, c₀, c₁, before, new ++ after, later ++ es, fuel, hsettings, ?_, ?_, hup, hqueue,
    hsince.trans haccounts⟩
  · rw [hinstall, List.append_assoc]
  · rw [haccesses, hsplit, List.append_assoc]

/-- Nothing has changed for who uses the console. -/
theorem Resting.congr {s s' : Journaled σ} (hs : Resting s) (hgrows : s.2 <:+ s'.2)
    (hconsole : s'.1.shared.console = s.1.shared.console) (hbegun : begun s'.2 = begun s.2)
    (hraising : raising s'.2 = raising s.2) (haccesses : accesses s'.2 = accesses s.2) :
    Resting s' := by
  rcases hs with hunraised | ⟨c, hraised⟩
  · exact .inl ⟨hconsole.trans hunraised.console, hbegun.trans hunraised.begun,
      hraising.trans hunraised.idle, haccesses.trans hunraised.accesses⟩
  · refine .inr ⟨c, hconsole.trans hraised.console, hbegun.trans hraised.begun,
      hraising.trans hraised.idle, ?_⟩
    exact hraised.driven.later hgrows (haccesses.trans (List.append_nil _).symm) (.refl c)

theorem Quiet.resting {s s' : Journaled σ} (h : Quiet s s') (hs : Resting s) : Resting s' :=
  hs.congr h.grows h.console h.begun h.raising h.accesses

theorem Quiet.goes {s s' : Journaled σ} (h : Quiet s s') : Goes s s' :=
  ⟨h.grows, fun _ => h, fun hs => ⟨h.resting hs, h.running⟩⟩

theorem Goes.refl (s : Journaled σ) : Goes s s := (Quiet.refl s).goes

/-- Two stretches are fine if each of them is. -/
theorem Goes.trans {s t u : Journaled σ} (hst : Goes s t) (htu : Goes t u) : Goes s u where
  grows := hst.grows.trans htu.grows
  shut hs := (hst.shut hs).trans (htu.shut ((hst.shut hs).shut hs))
  resting hs := by
    obtain ⟨ht, hrunning⟩ := hst.resting hs
    obtain ⟨hu, hrunning'⟩ := htu.resting ht
    exact ⟨hu, hrunning'.trans hrunning⟩

/-- An operation goes from where it is called to where it returns as its program does. -/
theorem Goes.enclosed {s t : Journaled σ} {op : Op σ} (result : Result)
    (h : Goes (s.1, .enter op :: s.2) t) : Goes s (t.1, .leave op result :: t.2) where
  grows := ((List.suffix_cons _ _).trans h.grows).trans (List.suffix_cons _ _)
  shut hs := by
    have hquiet := h.shut hs
    exact ⟨⟨((List.suffix_cons _ _).trans hquiet.grows).trans (List.suffix_cons _ _),
      hquiet.console, congrArg List.tail hquiet.running, hquiet.begun⟩, hquiet.accesses⟩
  resting hs := by
    obtain ⟨ht, hrunning⟩ := h.resting (hs.congr (List.suffix_cons _ _) rfl rfl rfl rfl)
    -- The operation leaves the list of those that are running as it came.
    have hleft : running (.leave op result :: t.2) = running s.2 := congrArg List.tail hrunning
    refine ⟨ht.congr (List.suffix_cons _ _) rfl rfl ?_ rfl, hleft⟩
    rw [raising, raising, hleft, hrunning]
    rfl

variable {c d e : Console}

theorem Drove.refl (c : Console) (s : Journaled σ) : Drove c s c s :=
  ⟨.refl s, [], (List.append_nil _).symm, .refl c⟩

/-- One console drove the devices over two stretches if it did over each. -/
theorem Drove.trans {s t u : Journaled σ} (hst : Drove c s d t)
    (htu : Drove d t e u) : Drove c s e u := by
  rcases hst.accounts with ⟨xs, hxs, hcd⟩
  rcases htu.accounts with ⟨ys, hys, hde⟩
  refine ⟨hst.toSteady.trans htu.toSteady, xs ++ ys, ?_, hcd.trans hde⟩
  rw [hys, hxs, List.append_assoc]

theorem Quiet.drove {s s' : Journaled σ} (h : Quiet s s') (c : Console) :
    Drove c s c s' :=
  ⟨h.toSteady, [], h.accesses.trans (List.append_nil _).symm, .refl c⟩

/-- The request is part of bringing up a console. -/
def ofBringingUp : Service → Bool
  | .isInstalled | .install _ => true
  | _ => false

/-- Any other request is only noted. -/
theorem quiet_note {s : Journaled σ} {w : World σ} {r : Service} (v : r.Reply)
    (hconsole : w.shared.console = s.1.shared.console) (hr : ofBringingUp r = false) :
    Quiet s (w, .service r v :: s.2) := by
  cases r with
  | isInstalled | install _ => cases hr
  | _ => exact ⟨⟨List.suffix_cons _ _, hconsole, rfl, rfl⟩, rfl⟩

/-- Who takes a console that is free and puts it back goes on driving the devices with
    it. -/
theorem goes_putBack {s s' : Journaled σ} {r : Service} (v : r.Reply)
    (hfree : s.1.shared.console = some (.free c)) (hr : ofBringingUp r = false)
    (hdrove : Drove c (taken s (.service r v)) d s') :
    Goes s (putBack s' d) := by
  have htaken : Quiet ({ s.1 with shared := { s.1.shared with console := some .held } }, s.2)
      (taken s (.service r v)) := quiet_note v rfl hr
  have hgrows : s.2 <:+ s'.2 := htaken.grows.trans hdrove.grows
  refine ⟨hgrows.trans (List.suffix_cons _ _), fun hshut => absurd hfree (hshut.not_free c),
    fun hs => ⟨.inr ⟨d, ?_⟩, hdrove.running.trans htaken.running⟩⟩
  rcases hs with hunraised | ⟨c', hraised⟩
  · exact nomatch hunraised.console.symm.trans hfree
  · obtain rfl : c' = c := by
      have hsame := hraised.console.symm.trans hfree
      cases hsame
      rfl
    rcases hdrove.accounts with ⟨es, hes, haccounts⟩
    refine ⟨rfl, (hdrove.begun.trans htaken.begun).trans hraised.begun,
      (hdrove.raising.trans htaken.raising).trans hraised.idle, ?_⟩
    refine hraised.driven.later (hgrows.trans (List.suffix_cons _ _)) ?_ haccounts
    exact hes.trans (congrArg (· ++ es) htaken.accesses)

end Kernel

end KernelConsole
