import KernelConsole.Proofs.Console.Using
import KernelConsole.Kernel.World

/-!
# Shapes of Operations

What operations are made of. There are many, but few kinds of them: most use the
console, so many times and each time as a driver does, two look at an input device
if the console is free, and some only ask what the logger is set to. The others are
bringing up the console, logging, and writing out the backlog.

What holds of operations is proved kind by kind. What is special about an operation
of a kind, such as what it writes, is in the drivers it uses.

## Main definitions

* `Console.Use.logged`, `Console.Use.look`: A use of the console as kernel code.
* `Kernel.useAll`: Using the console several times.
* `Kernel.Usage`, `Kernel.Op.usage?`, `Kernel.Op.look?`: What operations use.
* `Kernel.Idle`, `Kernel.Bare`: Requests that take nothing.
* `Kernel.Op.Lockless`: An operation that makes no other requests.
* `Kernel.Op.Shape`: The kinds of operations.

## Theorems

* `Kernel.Op.program_of_usage`, `Kernel.Op.program_of_look`: Operations that use the
  console do nothing else.
* `Kernel.lockless_only`: Operations that ask for no lock.
* `Kernel.Op.shape`: Every operation is of one of the kinds.
* `Kernel.withLogger_only`: The requests of a driver.
-/

namespace KernelConsole

open Console (Use)

namespace Console.Use

variable {σ α : Type}

/-- A use of the console as kernel code, whose reports are log calls. -/
def logged (use : Use α) (c : Console) : KernelIo σ (α × Console) :=
  (use.drive c).withLogger

/-- The same for a use that returns nothing but the console. -/
def look (use : Use Unit) (c : Console) : KernelIo σ Console :=
  Prod.snd <$> use.logged c

end Console.Use

namespace Kernel

open Prog

variable {σ S α β : Type}

/-- Uses the console several times, and each time waits for it and puts it back. -/
def useAll : List (Use α) → KernelIo σ (List (Option α))
  | [] => pure []
  | use :: rest => do
      let a ← withConsole use.logged
      let as ← useAll rest
      pure (a :: as)

/-- The uses of the console that an operation is made of, and what it makes of what they
    return. -/
structure Usage where
  {α : Type}
  all : List (Use α)
  result : List (Option α) → Result

/-- How an operation uses the console, if that is all it does. -/
def Op.usage? : Op σ → Option Usage
  | .output bytes => some ⟨bytes.map Use.output, fun _ => .nothing⟩
  | .input count => some ⟨List.replicate count Use.input, fun bs => .bytes (bs.map Option.join)⟩
  | .getByte => some ⟨[Use.blockingRead], fun bs => .byte bs.head?.join⟩
  | .readLine prompt buffer =>
      some ⟨[Use.readLine prompt buffer], fun lines => .line lines.head?.join⟩
  | .setColor foreground background =>
      some ⟨[Use.setColor foreground background], fun _ => .nothing⟩
  | .clearScreen => some ⟨[Use.clearScreen], fun _ => .nothing⟩
  | .print text => some ⟨[Use.print text], fun _ => .nothing⟩
  | _ => none

/-- The input device that an operation looks at, if that is all it does. -/
def Op.look? : Op σ → Option (Use Unit)
  | .serialInterrupt => some Use.serialInterrupt
  | .keyboardInterrupt => some Use.keyboardInterrupt
  | _ => none

theorem logged_acting (act : Console → LoggedIo Console) (text? : Option (List UInt8)) {hact hpath}
    {hsends} (c : Console) : ((Use.acting act text? hact hpath hsends).logged c : KernelIo σ _) =
      (act c).withLogger >>= fun c => pure ((), c) :=
  interpret_bind _ _ _

/-- A look that only acts is the act. -/
theorem look_acting (act : Console → LoggedIo Console) (text? : Option (List UInt8)) {hact hpath}
    {hsends} (c : Console) :
    ((Use.acting act text? hact hpath hsends).look c : KernelIo σ _) = (act c).withLogger := by
  rw [Use.look, logged_acting, map_eq_pure_bind, LawfulMonad.bind_assoc]
  exact bind_done _

/-- Writing bytes with one call each is using the console once for each. -/
theorem forM_output (bytes : List UInt8) (f : Unit → KernelIo σ β) :
    bytes.forM Kernel.output >>= f = useAll (bytes.map Use.output) >>= fun _ => f () := by
  induction bytes with
  | nil => rfl
  | cons byte rest ih =>
      -- One byte is one use of the console, and the rest goes by induction.
      have hbyte : (Kernel.output byte : KernelIo σ Unit) =
          withConsole (Use.output byte).logged >>= fun _ => pure () := by
        rw [funext (f := (Use.output byte).logged) fun c => logged_acting _ _ c]
        rfl
      change (Kernel.output byte >>= fun _ => rest.forM Kernel.output) >>= f = _
      rw [LawfulMonad.bind_assoc, ih, hbyte]
      simp only [List.map_cons, useAll, LawfulMonad.bind_assoc, LawfulMonad.pure_bind]

/-- Taking bytes with one call each likewise. -/
theorem collect_input (count : Nat) :
    (collect Kernel.input count : KernelIo σ _) =
      List.map Option.join <$> useAll (List.replicate count Use.input) := by
  induction count with
  | zero => rfl
  | succ n ih =>
      have hbyte : (Kernel.input : KernelIo σ _) =
          withConsole Use.input.logged >>= fun byte? => pure byte?.join := rfl
      rw [collect, ih, hbyte]
      simp only [List.replicate_succ, useAll, map_eq_pure_bind, LawfulMonad.bind_assoc,
        LawfulMonad.pure_bind, List.map_cons]

theorem useAll_one (use : Use α) (f : List (Option α) → β) :
    (f <$> useAll [use] : KernelIo σ β) = (fun a => f [a]) <$> withConsole use.logged := by
  simp only [useAll, map_eq_pure_bind, LawfulMonad.bind_assoc, LawfulMonad.pure_bind]

/-- Acting on the console once and returning nothing is using it once. -/
theorem useAll_acting (act : Console → LoggedIo Console) (text? : Option (List UInt8)) {hact hpath}
    {hsends} (r : β) :
    ((withConsole fun c => (act c).withLogger >>= fun c => pure ((), c)) >>= fun _ => pure ()) >>=
        (fun _ => pure r) =
      ((fun _ => r) <$> useAll [Use.acting act text? hact hpath hsends] : KernelIo σ β) := by
  rw [useAll_one, funext (logged_acting act text?)]
  simp only [map_eq_pure_bind, LawfulMonad.bind_assoc, LawfulMonad.pure_bind]

/-- The operation uses the console as it says, and does nothing else. -/
theorem Op.program_of_usage {op : Op σ} {u : Usage} (h : op.usage? = some u) :
    op.program = u.result <$> useAll u.all := by
  cases op <;> cases h
  case output bytes => exact forM_output bytes _
  case input count =>
    rw [Op.program, collect_input]
    exact (comp_map _ _ _).symm
  case getByte =>
    rw [useAll_one]
    rfl
  case readLine prompt buffer =>
    rw [useAll_one]
    rfl
  -- The last three act on the console and return nothing.
  case setColor foreground background =>
    exact useAll_acting (fun c => pure (c.setColor foreground background)) none _
  case clearScreen => exact useAll_acting _ _ _
  case print text => exact useAll_acting _ _ _

/-- The operation looks at an input device, and does nothing else. -/
theorem Op.program_of_look {op : Op σ} {use : Use Unit} (h : op.look? = some use) :
    op.program = interrupt use.look >>= fun _ => pure .nothing := by
  cases op <;> cases h
  case serialInterrupt =>
    rw [funext (f := Use.serialInterrupt.look) fun c => look_acting _ _ c]
    rfl
  case keyboardInterrupt =>
    rw [funext (f := Use.keyboardInterrupt.look) fun c => look_acting _ _ c]
    rfl

/-- The operation is a call of the logger. -/
def Op.IsLog : Op σ → Prop
  | .log _ _ _ => True
  | _ => False

/-- A request that neither takes nor puts back anything. -/
def Idle : Service → Prop
  | .isInstalled | .hasLogger | .installLogger | .filter | .setFilter _ => True
  | _ => False

/-- A request that touches neither lock, and sets only interrupts that run operations which
    are allowed. It does not ask for a console, either. -/
def Bare (A : Op σ → Prop) : (Calls σ).Request → Prop
  | .service r => Idle r ∧ r ≠ .isInstalled
  | .arm _ op => A op
  | .outside _ => True
  | _ => False

/-- The operation asks for no lock. -/
def Op.Lockless : Op σ → Prop
  | .installLogger _ | .setFilter _ | .logEnabled _ | .arm _ _ | .outside _ => True
  | _ => False

theorem logEnabled_only {A : Op σ → Prop} {H : Halt → Prop} (level : Level) :
    (logEnabled level).Only (Bare A) H :=
  Only.bind (Only.one ⟨trivial, nofun⟩) fun _ =>
    Only.bind (Only.one ⟨trivial, nofun⟩) fun _ => Only.pure

/-- What asks for no lock makes only such requests, and arms only what it is called with. -/
theorem lockless_only {A : Op σ → Prop} {H : Halt → Prop} {op : Op σ} (hlockless : op.Lockless)
    (harms : ∀ countdown inside, op = .arm countdown inside → A inside) :
    op.program.Only (Bare A) H := by
  cases op with
  | installLogger filter =>
      refine Only.bind (Only.bind (Only.one ⟨trivial, nofun⟩) fun first => ?_) fun _ => Only.pure
      by_cases hyes : first = true
      · rw [if_pos hyes]
        exact Only.bind (Only.one ⟨trivial, nofun⟩) fun _ => Only.pure
      · rw [if_neg hyes]
        exact Only.pure
  | setFilter filter => exact Only.bind (Only.one ⟨trivial, nofun⟩) fun _ => Only.pure
  | logEnabled level => exact Only.bind (logEnabled_only level) fun _ => Only.pure
  | arm countdown inside =>
      exact Only.bind (Only.one (harms countdown inside rfl)) fun _ => Only.pure
  | outside act => exact Only.one trivial
  | _ => exact absurd hlockless not_false

/-- A driver makes accesses, and its reports are log calls. -/
theorem withLogger_only {P : (Calls σ).Request → Prop} {Q : Reporting.Request → Prop}
    {H : Halt → Prop} (haccess : ∀ a, P (.access a))
    (hreport : ∀ r : Record, P (.call (.log r.level r.target (.text r.message .done))))
    {p : LoggedIo α} (hp : p.Only Q H) : (p.withLogger : KernelIo σ α).Only P H := by
  refine Only.interpret (fun r _ => ?_) hp
  cases r with
  | access a => exact Only.one (haccess a)
  | report r => exact Only.bind (Only.one (hreport r)) fun _ => Only.pure

/-- The kinds of operations. -/
inductive Op.Shape : Op σ → Prop
  | init (settings : Settings) : Shape (.init settings)
  | uses {op : Op σ} {u : Usage} (usage : op.usage? = some u) : Shape op
  | looks {op : Op σ} {use : Use Unit} (look : op.look? = some use) : Shape op
  | log (level : Level) (target : String) (message : Message σ) : Shape (.log level target message)
  | flushLog : Shape .flushLog
  | flushDeferred : Shape .flushDeferred
  | lockless {op : Op σ} (lockless : op.Lockless) : Shape op

/-- Every operation is of one of the kinds. -/
theorem Op.shape (op : Op σ) : op.Shape := by
  cases op with
  | init settings => exact .init settings
  | output _ | input _ | getByte | readLine _ _ | setColor _ _ | clearScreen | print _ =>
      exact .uses rfl
  | serialInterrupt | keyboardInterrupt => exact .looks rfl
  | log level target message => exact .log level target message
  | flushLog => exact .flushLog
  | flushDeferred => exact .flushDeferred
  | installLogger _ | setFilter _ | logEnabled _ | arm _ _ | outside _ => exact .lockless trivial

theorem Op.not_isLog_of_usage {op : Op σ} {u : Usage} (h : op.usage? = some u) : ¬ op.IsLog := by
  cases op <;> cases h
  all_goals exact not_false

theorem Op.not_isLog_of_look {op : Op σ} {use : Use Unit} (h : op.look? = some use) :
    ¬ op.IsLog := by
  cases op <;> cases h
  all_goals exact not_false

theorem Op.not_isLog_of_lockless {op : Op σ} (h : op.Lockless) : ¬ op.IsLog := by
  cases op <;> first | exact not_false | exact absurd h not_false

section Rules

variable {h : Handler (Calls σ) S} {fuel : Nat} {s : S}

/-- What every use of the console keeps, all of them keep. -/
theorem ensures_useAll {K : S → Prop} {uses : List (Use α)}
    (huse : ∀ use ∈ uses, ∀ t, K t →
      (withConsole use.logged).Ensures h fuel t fun _ t' => K t') (hs : K s) :
    (useAll uses).Ensures h fuel s fun _ s' => K s' := by
  induction uses generalizing s with
  | nil => exact ensures_pure hs
  | cons use rest ih =>
      refine ensures_bind (ensures_mono (huse use List.mem_cons_self s hs) fun _ s₁ hs₁ => ?_)
      -- The first use is over, and what it kept holds when the others begin.
      have hrest := ih (fun use' huse' => huse use' (List.mem_cons_of_mem _ huse')) hs₁
      exact ensures_bind (ensures_mono hrest fun _ _ hs₂ => ensures_pure hs₂)

/-- Flushing the logger writes out the backlog if a logger is installed, and does nothing
    if not. -/
theorem ensures_flushLog {Q : Result → S → Prop}
    (hyes : ∀ s₁, h (.service .hasLogger) s = .ok (true, s₁) →
      flushDeferred.Ensures h fuel s₁ fun _ s' => Q .nothing s')
    (hno : ∀ s₁, h (.service .hasLogger) s = .ok (false, s₁) → Q .nothing s₁) :
    (Op.flushLog : Op σ).program.Ensures h fuel s Q := by
  refine ensures_bind (ensures_bind (ensures_call fun v s₁ hreply => ensures_done ?_))
  cases v with
  | true => exact ensures_mono (hyes s₁ hreply) fun _ _ hQ => ensures_pure hQ
  | false => exact ensures_pure (ensures_pure (hno s₁ hreply))

end Rules

end Kernel

end KernelConsole
