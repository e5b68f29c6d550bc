import KernelConsole.Machine.Bench
import KernelConsole.Proofs.Kernel.Tallies
import KernelConsole.Proofs.TwoRuns

/-!
# Transparent Interrupts

A device interrupt may come at any access to a port, inside whatever runs then. No
operation can tell. With it or without it they return the same and make the same
accesses, and they leave the same behind: what waits in a device then is still there
for whoever looks next.

Two runs are kept in step through every program of the kernel. Drivers only run where
nobody can take the console: whoever uses it holds it, so does whoever writes out the
backlog, and there is none while it is brought up. What a driver asks is answered alike
on both sides, and the console stays where it is, so the next access finds it busy too.

The operations on the two sides are the same but for those that arm a device
interrupt, and for the messages that do so while they are written.

## Main definitions

* `Kernel.Matches`: Programs that end alike from two moments.
* `Kernel.Outcome`, `Kernel.World.Ends`: What can be told of a run.

## Theorems

* `Kernel.matches_bind`, `matches_then`, `matches_service`: The rules.
* `Kernel.driver_matches`: A driver, while nobody can take the console.
* `Kernel.flushOnto_matches`, `withConsole_matches`, `interrupt_matches`,
  `init_matches`, `log_matches`: The entry points.
* `Kernel.program_matches`, `alike_matches`: One operation, and two that are alike.
* `Kernel.agrees_perform`, `performAll_agrees`: Operations with all that runs inside.
* `Kernel.device_interrupts_transparent`: With device interrupts and without.
-/

namespace KernelConsole

namespace Kernel

open Prog

variable {σ α β : Type}

/-- From two moments, two programs end alike: if the first one ends, so does the second,
    with the same value and at moments as `Q` says. -/
def Matches (hw : Handler Hardware σ) (m n : Nat) (p q : KernelIo σ α) (s t : Journaled σ)
    (Q : α → Journaled σ → Journaled σ → Prop) : Prop :=
  p.Mirrors (Journaled.respond hw (Journaled.perform hw m)) (m + 1) s
    (Journaled.respond hw (Journaled.perform hw n)) (n + 1) q t fun a s' b t' => a = b ∧ Q a s' t'

section Rules

variable {hw : Handler Hardware σ} {m n : Nat} {s t : Journaled σ}

theorem matches_mono {p q : KernelIo σ α} {Q R : α → Journaled σ → Journaled σ → Prop}
    (h : Matches hw m n p q s t Q) (hQR : ∀ a s' t', Q a s' t' → R a s' t') :
    Matches hw m n p q s t R :=
  mirrors_mono h fun a s' _ t' ⟨hsame, hQ⟩ => ⟨hsame, hQR a s' t' hQ⟩

theorem matches_pure {a : α} {Q : α → Journaled σ → Journaled σ → Prop} (hQ : Q a s t) :
    Matches hw m n (pure a) (pure a) s t Q :=
  mirrors_pure ⟨rfl, hQ⟩

/-- One program after another ends alike if both parts do. -/
theorem matches_bind {p q : KernelIo σ α} {f g : α → KernelIo σ β}
    {Q : β → Journaled σ → Journaled σ → Prop}
    (h : Matches hw m n p q s t fun a s' t' => Matches hw m n (f a) (g a) s' t' Q) :
    Matches hw m n (p >>= f) (q >>= g) s t Q := by
  refine mirrors_bind (mirrors_mono h ?_)
  rintro a s' _ t' ⟨rfl, hrest⟩
  exact hrest

theorem matches_map {p q : KernelIo σ α} {f : α → β} {Q : β → Journaled σ → Journaled σ → Prop}
    (h : Matches hw m n p q s t fun a s' t' => Q (f a) s' t') :
    Matches hw m n (f <$> p) (f <$> q) s t Q := by
  refine mirrors_map (mirrors_mono h ?_)
  rintro a s' _ t' ⟨rfl, hQ⟩
  exact ⟨rfl, hQ⟩

theorem matches_service (r : Service) (h : Tallies s t)
    {Q : r.Reply → Journaled σ → Journaled σ → Prop}
    (hQ : ∀ v s' t', Journaled.respond hw (Journaled.perform hw m) (.service r) s = .ok (v, s') →
      Tallies s' t' → Q v s' t') : Matches hw m n (service r) (service r) s t Q := by
  refine mirrors_call fun v s' hreply => ?_
  -- The other side has the same to answer, since the same is shared.
  rcases service_agrees (n := n) r h hreply with ⟨t', hreply', h'⟩
  exact ⟨v, t', hreply', mirrors_pure ⟨rfl, hQ v s' t' hreply h'⟩⟩

/-- The rest of the program only makes something of the value. -/
theorem matches_then {p q : KernelIo σ α} {f : α → β} {Q : Journaled σ → Journaled σ → Prop}
    (h : Matches hw m n p q s t fun _ => Q) :
    Matches hw m n (p >>= fun a => pure (f a)) (q >>= fun a => pure (f a)) s t fun _ => Q :=
  matches_bind (matches_mono h fun _ _ _ hQ => matches_pure hQ)

theorem service_matches (r : Service) (h : Tallies s t) :
    Matches hw m n (service r) (service r) s t fun _ => Tallies :=
  matches_service r h fun _ _ _ _ h' => h'

end Rules

section Programs

variable {hw : Handler Hardware σ} {m n : Nat} {l : Option (Lock Console)} {s t : Journaled σ}

/-- A driver is answered alike on both sides, as long as nobody can take the console. -/
theorem logging_mirrors (hmn : m < n) (hagrees : Agrees hw m n) (hbusy : Busy l)
    (p : LoggedIo α) (h : Within l s t) :
    p.Mirrors (Journaled.respond hw (Journaled.perform hw m)).logging (m + 1) s
      (Journaled.respond hw (Journaled.perform hw n)).logging (n + 1) p t fun a s' b t' =>
        a = b ∧ Within l s' t' :=
  (only_true p).mirrors (by omega)
    (fun r _ _ _ h _ _ hreply => logging_agrees hmn hagrees hbusy r h hreply) h

/-- A driver, while nobody can take the console. -/
theorem driver_matches (hmn : m < n) (hagrees : Agrees hw m n) (hbusy : Busy l)
    (p : LoggedIo α) (h : Within l s t) :
    Matches hw m n p.withLogger p.withLogger s t fun _ => Within l := by
  intro a s' hrun
  rw [run_withLogger] at hrun
  rcases logging_mirrors hmn hagrees hbusy p h a s' hrun with ⟨b, t', hrun', hQ⟩
  exact ⟨b, t', (run_withLogger p t).trans hrun', hQ⟩

theorem lifted_matches (hmn : m < n) (hagrees : Agrees hw m n) (hbusy : Busy l) (p : Io α)
    (h : Within l s t) :
    Matches hw m n (p.interpret access) (p.interpret access) s t fun _ => Within l := by
  intro a s' hrun
  rw [run_lifted] at hrun
  rcases logging_mirrors hmn hagrees hbusy p.unreported h a s' hrun with ⟨b, t', hrun', hQ⟩
  exact ⟨b, t', (run_lifted p t).trans hrun', hQ⟩

/-- Who holds the console writes out the backlog. -/
theorem flushOnto_matches (hmn : m < n) (hagrees : Agrees hw m n) (c : Console)
    (h : Within (some .held) s t) :
    Matches hw m n (flushOnto c) (flushOnto c) s t fun _ => Within (some .held) := by
  rcases h with ⟨h, hheld⟩
  refine matches_bind (matches_service _ h fun v s₁ t₁ hreply h₁ => ?_)
  rcases tryLockBacklog_reply hreply with ⟨rfl, _, rfl⟩ | ⟨b, rfl, _, rfl⟩
  · exact matches_pure ⟨h₁, hheld⟩
  · refine matches_bind (matches_mono (lifted_matches hmn hagrees busy_held (b.flushInto c)
      ⟨h₁, hheld⟩) fun v s₂ t₂ ⟨h₂, hheld₂⟩ => ?_)
    refine matches_bind (matches_service _ h₂ fun _ s₃ t₃ hreply₃ h₃ => ?_)
    cases hreply₃
    exact matches_pure ⟨h₃, hheld₂⟩

/-- A flush takes the console on both sides or on neither. -/
theorem flushDeferred_matches (hmn : m < n) (hagrees : Agrees hw m n) (h : Tallies s t) :
    Matches hw m n flushDeferred flushDeferred s t fun _ => Tallies := by
  refine matches_bind (matches_service _ h fun v s₁ t₁ hreply h₁ => ?_)
  rcases tryLockConsole_reply hreply with ⟨rfl, _, rfl⟩ | ⟨c, rfl, _, rfl⟩
  · exact matches_pure h₁
  · refine matches_bind (matches_mono (flushOnto_matches hmn hagrees c ⟨h₁, rfl⟩)
      fun c' s₂ t₂ ⟨h₂, _⟩ => ?_)
    exact service_matches _ h₂

/-- Who waits for the console uses it while nobody else can take it. -/
theorem withConsole_matches (hmn : m < n) (hagrees : Agrees hw m n)
    {use : Console → KernelIo σ (α × Console)}
    (huse : ∀ c s t, Within (some .held) s t →
      Matches hw m n (use c) (use c) s t fun _ => Within (some .held)) (h : Tallies s t) :
    Matches hw m n (withConsole use) (withConsole use) s t fun _ => Tallies := by
  have hholding : Matches hw m n (holding use) (holding use) s t fun _ => Tallies := by
    refine matches_bind (matches_service _ h fun v s₁ t₁ hreply h₁ => ?_)
    rcases lockConsole_reply hreply with ⟨rfl, _, rfl⟩ | ⟨c, rfl, _, rfl⟩
    · exact matches_pure h₁
    · refine matches_bind (matches_mono (huse c _ t₁ ⟨h₁, rfl⟩) fun v s₂ t₂ ⟨h₂, _⟩ => ?_)
      exact matches_then (service_matches _ h₂)
  refine matches_bind (matches_mono hholding fun r s₁ t₁ h₁ => ?_)
  exact matches_then (flushDeferred_matches hmn hagrees h₁)

theorem interrupt_matches (hmn : m < n) (hagrees : Agrees hw m n)
    {look : Console → KernelIo σ Console}
    (hlook : ∀ c s t, Within (some .held) s t →
      Matches hw m n (look c) (look c) s t fun _ => Within (some .held)) (h : Tallies s t) :
    Matches hw m n (interrupt look) (interrupt look) s t fun _ => Tallies := by
  have hfirst : Matches hw m n (lookIfFree look) (lookIfFree look) s t fun _ => Tallies := by
    refine matches_bind (matches_service _ h fun v s₁ t₁ hreply h₁ => ?_)
    rcases tryLockConsole_reply hreply with ⟨rfl, _, rfl⟩ | ⟨c, rfl, _, rfl⟩
    · exact matches_pure h₁
    · refine matches_bind (matches_mono (hlook c _ t₁ ⟨h₁, rfl⟩) fun c' s₂ t₂ ⟨h₂, _⟩ => ?_)
      exact service_matches _ h₂
  exact matches_bind (matches_mono hfirst fun _ _ _ h₁ => flushDeferred_matches hmn hagrees h₁)

/-- Nobody can take a console that is being brought up. -/
theorem init_matches (hmn : m < n) (hagrees : Agrees hw m n) (settings : Settings)
    (h : Tallies s t) :
    Matches hw m n (Kernel.init settings) (Kernel.init settings) s t fun _ => Tallies := by
  refine matches_bind (matches_service _ h fun v s₁ t₁ hreply h₁ => ?_)
  by_cases hyes : v = true
  · rw [if_pos hyes]
    exact matches_pure h₁
  · rw [if_neg hyes]
    cases hsettings : Console.ofSettings settings with
    | error fault => exact matches_pure h₁
    | ok c =>
        -- There was no console when it was asked for, and there is none yet.
        have hnone : s₁.1.shared.console = none := by
          cases hreply
          have hfree := Option.isSome_eq_false_iff.1 (Bool.eq_false_iff.2 hyes)
          exact Option.isNone_iff_eq_none.1 hfree
        refine matches_bind (matches_mono (driver_matches hmn hagrees busy_none c.init ⟨h₁, hnone⟩)
          fun c₂ s₂ t₂ ⟨h₂, _⟩ => ?_)
        refine matches_bind (matches_service _ h₂ fun _ s₃ t₃ _ h₃ => ?_)
        exact matches_then (flushDeferred_matches hmn hagrees h₃)

/-- Messages that are alike are written alike, while nobody can take the console. -/
theorem writePieces_matches {τ : Type} {put : τ → String → KernelIo σ τ}
    (hagrees : Agrees hw m n) (hbusy : Busy l)
    (hput : ∀ x text s t, Within l s t →
      Matches hw m n (put x text) (put x text) s t fun _ => Within l)
    {message message' : Message σ} (halike : message.Alike message')
    (hmessage : l = none → message.NoInit) (x : τ) {s t : Journaled σ} (h : Within l s t) :
    Matches hw m n (writePieces put message.pieces x) (writePieces put message'.pieces x) s t
      fun _ => Within l := by
  -- The induction is on the message, which is made together with its operations.
  match message, message', halike with
  | _, _, .done => exact matches_pure h
  | _, _, .text hrest =>
      refine matches_bind (matches_pure (matches_bind (matches_mono (hput x _ s t h) ?_)))
      exact fun x₁ s₁ t₁ h₁ => writePieces_matches hagrees hbusy hput hrest hmessage x₁ h₁
  | .code op _ _, .code op' _ _, .code hop hrest =>
      refine matches_bind (matches_map (mirrors_call fun r s₁ hreply => ?_))
      rcases nested_agrees hagrees hbusy hop (fun hnone => (hmessage hnone).1) h hreply with
        ⟨t₁, hreply', h₁⟩
      refine ⟨r, t₁, hreply', mirrors_pure ⟨rfl, ?_⟩⟩
      refine matches_bind (matches_mono (hput x _ s₁ t₁ h₁) fun x₂ s₂ t₂ h₂ => ?_)
      exact writePieces_matches hagrees hbusy hput hrest (fun hnone => (hmessage hnone).2) x₂ h₂

/-- The lines of records whose messages are alike. -/
theorem writeLine_matches {τ : Type} {put : τ → String → KernelIo σ τ}
    (hagrees : Agrees hw m n) (hbusy : Busy l)
    (hput : ∀ x text s t, Within l s t →
      Matches hw m n (put x text) (put x text) s t fun _ => Within l)
    {message message' : Message σ} (halike : message.Alike message')
    (hmessage : l = none → message.NoInit) (level : Level) (target : String) (x : τ)
    (h : Within l s t) :
    Matches hw m n (writePieces put (linePieces level target message.pieces) x)
      (writePieces put (linePieces level target message'.pieces) x) s t fun _ => Within l := by
  -- The heading comes first, then the message, and then the newline.
  refine matches_bind (matches_pure (matches_bind (matches_mono (hput x _ s t h)
    fun x₁ s₁ t₁ h₁ => ?_)))
  have hsplit : ∀ pieces : Pieces σ, writePieces put (List.append pieces [pure "\n"]) x₁ =
      writePieces put pieces x₁ >>= writePieces put [pure "\n"] :=
    fun pieces => writePieces_append pieces _ x₁
  rw [hsplit, hsplit]
  refine matches_bind (matches_mono
    (writePieces_matches hagrees hbusy hput halike hmessage x₁ h₁) fun x₂ s₂ t₂ h₂ => ?_)
  refine matches_bind (matches_pure (matches_bind (matches_mono (hput x₂ _ s₂ t₂ h₂) ?_)))
  exact fun _ _ _ h₃ => matches_pure h₃

/-- A line goes to the same place on both sides. -/
theorem logPassed_matches (hmn : m < n) (hagrees : Agrees hw m n) (level : Level)
    (target : String) {message message' : Message σ} (halike : message.Alike message')
    (hmessage : s.1.shared.console = none → message.NoInit) (h : Tallies s t) :
    Matches hw m n (logPassed level target message.pieces) (logPassed level target message'.pieces)
      s t fun _ => Tallies := by
  refine matches_bind (matches_service _ h fun v s₁ t₁ hreply h₁ => ?_)
  rcases tryLockConsole_reply hreply with ⟨rfl, hbusy, rfl⟩ | ⟨c, rfl, _, rfl⟩
  · -- The console cannot be had, so the line goes into the backlog, if that can be had.
    refine matches_bind (matches_service _ h₁ fun v s₂ t₂ hreply₂ h₂ => ?_)
    rcases tryLockBacklog_reply hreply₂ with ⟨rfl, _, rfl⟩ | ⟨b, rfl, _, rfl⟩
    · exact matches_pure h₂
    · have hput : ∀ b text s' t', Within s.1.shared.console s' t' →
          Matches hw m n (putBacklog b text) (putBacklog b text) s' t' fun _ =>
            Within s.1.shared.console := fun _ _ _ _ h => matches_pure h
      refine matches_bind (matches_mono (writeLine_matches hagrees hbusy hput halike hmessage
        level target b ⟨h₂, rfl⟩) fun b' s₃ t₃ ⟨h₃, _⟩ => ?_)
      exact service_matches _ h₃
  · -- The console is held from here on, so what the message runs cannot take it.
    refine matches_bind (matches_mono (flushOnto_matches hmn hagrees c ⟨h₁, rfl⟩)
      fun c₂ s₂ t₂ h₂ => ?_)
    have hput : ∀ c text s' t', Within (some .held) s' t' →
        Matches hw m n (putConsole c text) (putConsole c text) s' t' fun _ => Within (some .held) :=
      fun c text s' t' h => lifted_matches hmn hagrees busy_held (c.writeText text) h
    refine matches_bind (matches_mono (writeLine_matches hagrees busy_held hput halike nofun level
      target c₂ h₂) fun c₃ s₃ t₃ ⟨h₃, _⟩ => ?_)
    exact service_matches _ h₃

theorem logEnabled_matches (level : Level) (h : Tallies s t) :
    Matches hw m n (logEnabled level) (logEnabled level) s t fun _ s' t' =>
      Tallies s' t' ∧ (s'.1.shared.console = none → s.1.shared.console = none) := by
  refine matches_bind (matches_service _ h fun _ s₁ t₁ hreply h₁ => ?_)
  refine matches_bind (matches_service _ h₁ fun _ s₂ t₂ hreply₂ h₂ => ?_)
  exact matches_pure ⟨h₂, fun hnone => service_none hreply (service_none hreply₂ hnone)⟩

theorem log_matches (hmn : m < n) (hagrees : Agrees hw m n) (level : Level) (target : String)
    {message message' : Message σ} (halike : message.Alike message')
    (hmessage : s.1.shared.console = none → message.NoInit) (h : Tallies s t) :
    Matches hw m n (log level target message.pieces) (log level target message'.pieces) s t
      fun _ => Tallies := by
  refine matches_bind (matches_mono (logEnabled_matches level h)
    fun enabled s₁ t₁ ⟨h₁, hnone⟩ => ?_)
  by_cases henabled : enabled = true
  · rw [if_pos henabled, if_pos henabled]
    exact logPassed_matches hmn hagrees level target halike (fun h => hmessage (hnone h)) h₁
  · rw [if_neg henabled, if_neg henabled]
    exact matches_pure h₁

/-- Two moments that tally do so after interrupts were armed that are alike. -/
theorem arm_tallies {countdown : Nat} {op op' : Op σ} (hop : op.Alike op')
    (hnoInit : s.1.shared.console = none → op.NoInit) (h : Tallies s t) :
    Tallies (s.1.arm countdown op, s.2) (t.1.arm countdown op', t.2) := by
  have harmed : AllAlike [⟨countdown, op⟩] [⟨countdown, op'⟩] := .both hop .nil
  refine h.arm harmed fun hnone i hi => ?_
  rw [List.mem_singleton.1 hi]
  exact hnoInit hnone

/-- Arming interrupts that are alike. -/
theorem arm_matches {countdown : Nat} {op op' : Op σ} (hop : op.Alike op')
    (hnoInit : s.1.shared.console = none → op.NoInit) (h : Tallies s t) :
    Matches hw m n (Op.arm countdown op).program (Op.arm countdown op').program s t
      fun _ => Tallies := by
  refine matches_bind (mirrors_call fun _ s₁ hreply => ?_)
  cases hreply
  exact ⟨(), (t.1.arm countdown op', t.2), rfl,
    mirrors_pure ⟨rfl, matches_pure (arm_tallies hop hnoInit h)⟩⟩

/-- Arming a device interrupt, and doing nothing. -/
theorem fewer_matches {countdown : Nat} {op : Op σ} (hdevice : op.isDevice = true)
    (h : Tallies s t) :
    Matches hw m n (Op.arm countdown op).program (Op.output []).program s t fun _ => Tallies := by
  have harmed : AllAlike [⟨countdown, op⟩] [] := .fewer hdevice .nil
  have harm := h.arm harmed fun _ i hi => List.mem_singleton.1 hi ▸ noInit_of_isDevice hdevice
  -- The second side has armed nothing, and the first one interrupt more.
  simp only [List.append_nil] at harm
  intro r s' hrun
  cases hrun
  exact ⟨.nothing, t, rfl, rfl, harm⟩

/-- Doing nothing, and arming a device interrupt. -/
theorem more_matches {countdown : Nat} {op : Op σ} (hdevice : op.isDevice = true)
    (h : Tallies s t) :
    Matches hw m n (Op.output []).program (Op.arm countdown op).program s t fun _ => Tallies := by
  have harmed : AllAlike [] [⟨countdown, op⟩] := .more hdevice .nil
  have harm := h.arm harmed fun _ i hi => absurd hi List.not_mem_nil
  simp only [List.append_nil] at harm
  intro r s' hrun
  cases hrun
  exact ⟨.nothing, (t.1.arm countdown op, t.2), rfl, rfl, harm⟩

/-- Using the console several times. -/
theorem useAll_matches (hmn : m < n) (hagrees : Agrees hw m n) (uses : List (Console.Use α))
    (h : Tallies s t) :
    Matches hw m n (useAll uses) (useAll uses) s t fun _ => Tallies := by
  induction uses generalizing s t with
  | nil => exact matches_pure h
  | cons use rest ih =>
      have huse : ∀ c s t, Within (some .held) s t →
          Matches hw m n (use.logged c) (use.logged c) s t fun _ => Within (some .held) :=
        fun c _ _ h => driver_matches hmn hagrees busy_held (use.drive c) h
      refine matches_bind (matches_mono (withConsole_matches hmn hagrees huse h)
        fun a s₁ t₁ h₁ => ?_)
      exact matches_then (ih h₁)

/-- What is answered to an operation that asks for no lock. While there is no console, it
    arms no interrupt that brings one up. -/
theorem bare_agrees {s₀ : Journaled σ} (r : (Calls σ).Request)
    (hr : Bare (fun op => s₀.1.shared.console = none → op.NoInit) r) (s t : Journaled σ)
    (h : Tallies s t ∧ (s.1.shared.console = none → s₀.1.shared.console = none))
    (v : (Calls σ).Reply r) (s' : Journaled σ)
    (hreply : Journaled.respond hw (Journaled.perform hw m) r s = .ok (v, s')) :
    ∃ t', Journaled.respond hw (Journaled.perform hw n) r t = .ok (v, t') ∧
      Tallies s' t' ∧ (s'.1.shared.console = none → s₀.1.shared.console = none) := by
  rcases h with ⟨h, hnone⟩
  cases r with
  | access a => exact absurd hr not_false
  | call op => exact absurd hr not_false
  | service r =>
      rcases service_agrees (n := n) r h hreply with ⟨t', hreply', h'⟩
      -- What asks for no lock installs no console either.
      exact ⟨t', hreply', h', fun hnone' => hnone (service_none hreply hnone')⟩
  | arm countdown op =>
      cases hreply
      exact ⟨(t.1.arm countdown op, t.2), rfl,
        arm_tallies (.same op) (fun hnone' => hr (hnone hnone')) h, hnone⟩
  | outside act =>
      cases hreply
      -- Somebody outside finds the same machine on both sides.
      refine ⟨({ t.1 with machine := (act t.1.machine).2 }, t.2), ?_,
        ⟨?_, h.shared, h.armed, h.accesses, h.guarded⟩, hnone⟩
      · rw [h.machine]
        rfl
      · rw [h.machine]

/-- The same operation on both sides. -/
theorem program_matches (hmn : m < n) (hagrees : Agrees hw m n) (op : Op σ)
    (htop : s.1.shared.console = none → op.AtTop) (h : Tallies s t) :
    Matches hw m n op.program op.program s t fun _ => Tallies := by
  cases op.shape with
  | init settings => exact matches_map (init_matches hmn hagrees settings h)
  | uses husage =>
      rw [Op.program_of_usage husage]
      exact matches_map (useAll_matches hmn hagrees _ h)
  | looks hlook =>
      rw [Op.program_of_look hlook]
      exact matches_then (interrupt_matches hmn hagrees (fun c _ _ h =>
        matches_map (driver_matches hmn hagrees busy_held _ h)) h)
  | log level target message =>
      have hmessage : s.1.shared.console = none → message.NoInit :=
        fun hnone => (htop hnone).resolve_left nofun
      exact matches_then (log_matches hmn hagrees level target message.alike_refl hmessage h)
  | flushLog =>
      refine matches_then (matches_bind (matches_service _ h fun v s₁ t₁ _ h₁ => ?_))
      by_cases hyes : v = true
      · rw [if_pos hyes]
        exact flushDeferred_matches hmn hagrees h₁
      · rw [if_neg hyes]
        exact matches_pure h₁
  | flushDeferred => exact matches_then (flushDeferred_matches hmn hagrees h)
  | lockless hlockless =>
      have honly : op.program.Only (Bare fun inside => s.1.shared.console = none →
          inside.NoInit) := by
        refine lockless_only hlockless fun countdown inside harm hnone => ?_
        subst harm
        exact (htop hnone).resolve_left nofun
      refine mirrors_mono (honly.mirrors (by omega) bare_agrees ⟨h, fun hnone => hnone⟩) ?_
      exact fun _ _ _ _ ⟨hsame, h', _⟩ => ⟨hsame, h'⟩

/-- Operations that are alike. -/
theorem alike_matches (hmn : m < n) (hagrees : Agrees hw m n) {op op' : Op σ}
    (hop : op.Alike op') (htop : s.1.shared.console = none → op.AtTop) (h : Tallies s t) :
    Matches hw m n op.program op'.program s t fun _ => Tallies := by
  cases hop with
  | same op => exact program_matches hmn hagrees op htop h
  | arm hop => exact arm_matches hop (fun hnone => (htop hnone).resolve_left nofun) h
  | fewer hdevice => exact fewer_matches hdevice h
  | more hdevice => exact more_matches hdevice h
  | log hmessage =>
      exact matches_then (log_matches hmn hagrees _ _ hmessage
        (fun hnone => (htop hnone).resolve_left nofun) h)

end Programs

/-- With more fuel, operations do the same where other device interrupts are armed. -/
theorem agrees_perform (hw : Handler Hardware σ) {m n : Nat} (hmn : m < n) : Agrees hw m n := by
  -- The fuel bounds how deep operations nest, so the ones inside have less on both sides.
  induction m generalizing n with
  | zero => exact fun _ _ _ _ _ _ _ _ _ hrun => nomatch hrun
  | succ m ih =>
      obtain ⟨k, rfl⟩ : ∃ k, n = k + 1 := ⟨n - 1, by omega⟩
      have hmk : m < k := by omega
      intro op op' s t hop h htop r s' hrun
      rcases bind_eq_ok.1 hrun with ⟨⟨v, s₁⟩, hprogram, hend⟩
      cases hend
      have hstart : Tallies (s.1, .enter op :: s.2) (t.1, .enter op' :: t.2) :=
        h.congr rfl rfl rfl rfl
      obtain ⟨_, t₁, hprogram', rfl, h₁⟩ :=
        alike_matches (s := (s.1, .enter op :: s.2)) hmk (ih hmk) hop htop hstart _ _ hprogram
      exact ⟨(t₁.1, .leave op' v :: t₁.2), bind_eq_ok.2 ⟨(v, t₁), hprogram', rfl⟩,
        h₁.congr rfl rfl rfl rfl⟩

/-- Operations called one after the other do the same with more fuel where other device
    interrupts are armed. -/
theorem performAll_agrees (hw : Handler Hardware σ) {m n : Nat} (hmn : m < n)
    {ops ops' : List (Op σ)} (halike : List.Forall₂ Op.Alike ops ops')
    (hops : ∀ op ∈ ops, op.AtTop) {s s' t : Journaled σ} (h : Tallies s t) {results : List Result}
    (hrun : Journaled.performAll hw m ops s = .ok (results, s')) :
    ∃ t', Journaled.performAll hw n ops' t = .ok (results, t') ∧ Tallies s' t' := by
  induction halike generalizing s t results with
  | nil =>
      cases hrun
      exact ⟨t, rfl, h⟩
  | cons hop _ ih =>
      rcases bind_eq_ok.1 hrun with ⟨⟨r, s₁⟩, hfirst, hothers⟩
      rcases bind_eq_ok.1 hothers with ⟨⟨rs, s₂⟩, hrest, hend⟩
      cases hend
      rcases agrees_perform hw hmn _ _ s t hop h (fun _ => hops _ List.mem_cons_self) r s₁ hfirst
        with ⟨t₁, hfirst', h₁⟩
      obtain ⟨t', hrest', h'⟩ := ih (fun op hop => hops op (List.mem_cons_of_mem _ hop)) h₁ hrest
      exact ⟨t', bind_eq_ok.2 ⟨(r, t₁), hfirst', bind_eq_ok.2 ⟨(rs, t'), hrest', rfl⟩⟩, h'⟩

/-- What can be told of a run when it has ended. -/
structure Outcome (σ : Type) where
  /-- What the operations returned. -/
  results : List Result
  /-- The accesses that were made, with their replies. -/
  accesses : List Event
  /-- The machine in the end. -/
  machine : σ
  /-- What is shared in the end: the console, the backlog and the log filter. -/
  shared : Shared

/-- Given enough fuel, the operations end, and with this outcome. -/
def World.Ends (hw : Handler Hardware σ) (w : World σ) (ops : List (Op σ)) (o : Outcome σ) : Prop :=
  ∃ fuel w' journal, Journaled.performAll hw fuel ops (w, []) = .ok (o.results, w', journal) ∧
    o.accesses = accesses journal ∧ o.machine = w'.machine ∧ o.shared = w'.shared

theorem World.Ends.tallies {hw : Handler Hardware σ} {w v : World σ} {ops ops' : List (Op σ)}
    (halike : List.Forall₂ Op.Alike ops ops') (hops : ∀ op ∈ ops, op.AtTop)
    (h : Tallies (w, []) (v, [])) {o : Outcome σ} (hends : w.Ends hw ops o) : v.Ends hw ops' o := by
  rcases hends with ⟨fuel, w', journal, hrun, haccesses, hmachine, hshared⟩
  -- One more unit of fuel is enough for the other side.
  rcases performAll_agrees hw (Nat.lt_succ_self fuel) halike hops h hrun with
    ⟨⟨v', journal'⟩, hrun', h'⟩
  exact ⟨fuel + 1, v', journal', hrun', haccesses.trans h'.accesses, hmachine.trans h'.machine,
    hshared.trans h'.shared⟩

/-- Whatever device interrupts are armed, at the start or by what runs, operations end
    exactly as they do without them: they return the same, make the same accesses, and
    leave the same machine, console and backlog. A device interrupt that finds the
    console busy asks for it twice in vain, and leaves the world as it was, with every
    byte that waits in a device. -/
theorem device_interrupts_transparent (hw : Handler Hardware σ) {w : World σ}
    {ops : List (Op σ)} (harmed : w.NoInit) (hops : ∀ op ∈ ops, op.AtTop) :
    (∀ o, w.Ends hw ops o ↔ w.undisturbed.Ends hw (ops.map Op.undisturbed) o) ∧
      ∀ (v : World σ) (op : Op σ) (fuel : Nat) (journal : List (Moment σ)),
        op.isDevice = true → Busy v.shared.console →
        Journaled.perform hw (fuel + 1) op (v, journal) =
          .ok (.nothing, v, turnedAway op journal) := by
  have halike : List.Forall₂ Op.Alike ops (ops.map Op.undisturbed) :=
    List.forall₂_map_right_iff.2 (List.forall₂_same.2 fun op _ => op.alike_undisturbed)
  -- Being alike goes both ways, and so does the outcome.
  have hback : List.Forall₂ Op.Alike (ops.map Op.undisturbed) ops :=
    List.forall₂_map_left_iff.2 (List.forall₂_same.2 fun op _ => op.alike_undisturbed.symm)
  have hops' : ∀ op ∈ ops.map Op.undisturbed, op.AtTop := by
    intro op hop
    rcases List.mem_map.1 hop with ⟨op', hop', rfl⟩
    exact (hops op' hop').undisturbed
  have hstart : Tallies (w, []) (w.undisturbed, []) :=
    ⟨rfl, rfl, allAlike_undisturbed w, rfl, fun _ => harmed⟩
  have hstart' : Tallies (w.undisturbed, []) (w, []) :=
    ⟨rfl, rfl, (allAlike_undisturbed w).symm, rfl, fun _ => harmed.undisturbed⟩
  refine ⟨fun o => ⟨fun hends => hends.tallies halike hops hstart,
    fun hends => hends.tallies hback hops' hstart'⟩, ?_⟩
  exact fun v op fuel journal hdevice hbusy => perform_device hw fuel hdevice hbusy journal

/-- A byte waits at the serial port, and an interrupt for it comes while the console is
    brought up. -/
def waitingByte : World Bench where
  machine := { received := [0x00, 0x61] }
  armed := [⟨4, .serialInterrupt⟩]

/-- Two more interrupts come while the byte is read. -/
def disturbedRead : List (Op Bench) :=
  [.init {}, .arm 1 .keyboardInterrupt, .arm 3 .serialInterrupt, .input 1]

theorem device_interrupts_transparent_waiting_byte :
    waitingByte.NoInit ∧ (∀ op ∈ disturbedRead, op.AtTop) ∧
    (∃ w' journal o,
      Journaled.performAll Bench.respond.handler 4 disturbedRead (waitingByte, []) =
        .ok (o.results, w', journal) ∧
      w'.fired = 3 ∧
      o.results = [.settled (.ok ()), .nothing, .nothing, .bytes [some 0x61]] ∧
      waitingByte.undisturbed.armed = [] ∧
      waitingByte.undisturbed.Ends Bench.respond.handler
        [.init {}, .output [], .output [], .input 1] o) ∧
    let held : World Bench := { waitingByte with shared := { console := some .held } }
    Journaled.perform Bench.respond.handler 1 .serialInterrupt (held, []) =
      .ok (.nothing, held, turnedAway .serialInterrupt []) := by
  have hends : ((Journaled.performAll Bench.respond.handler 4 disturbedRead
      (waitingByte, [])).toOption.map fun v => (v.2.1.fired, v.1)) =
        some (3, [.settled (.ok ()), .nothing, .nothing, .bytes [some 0x61]]) := by
    decide +kernel
  rcases Option.map_eq_some_iff.1 hends with ⟨⟨results, w', journal⟩, hsome, hvalues⟩
  have hrun := eq_ok_of_toOption hsome
  obtain ⟨hfired, hresults⟩ := Prod.mk.inj hvalues
  have harmed : waitingByte.NoInit := fun i hi => by
    rw [List.mem_singleton.1 hi]
    trivial
  have hops : ∀ op ∈ disturbedRead, op.AtTop := by
    intro op hop
    simp only [disturbedRead, List.mem_cons, List.not_mem_nil, or_false] at hop
    rcases hop with rfl | rfl | rfl | rfl
    · exact .inl ⟨_, rfl⟩
    · exact .inr trivial
    · exact .inr trivial
    · exact .inr trivial
  obtain ⟨hsame, haway⟩ := device_interrupts_transparent Bench.respond.handler harmed hops
  refine ⟨harmed, hops, ?_, haway _ _ 0 [] rfl busy_held⟩
  let o : Outcome Bench := ⟨results, accesses journal, w'.machine, w'.shared⟩
  exact ⟨w', journal, o, hrun, hfired, hresults, rfl,
    (hsame o).1 ⟨4, w', journal, hrun, rfl, rfl, rfl⟩⟩

end Kernel

end KernelConsole
