import KernelConsole.Proofs.Kernel.Rest

/-!
# Whole Units

Whatever interrupts a kernel and whatever runs while a record is written, the
stream of bytes it sends is a sequence of whole units, and the lines of its
records come in the order in which the log calls got hold of a place for them.

The operations are called one after the other, each from rest to rest. Inside
them anything may run that does not bring up a console.

## Main definitions

* `Kernel.Op.Units`, `Kernel.AllUnits`: What operations write of their own.
* `Kernel.Op.AtTop`: Only the operation itself brings up the console.

## Theorems

* `Kernel.log_rest`, `Kernel.init_rest`: Logging and bringing up the console.
* `Kernel.program_rest`, `perform_rest`, `performAll_rest`: Operations.
* `Kernel.units_never_interleave`: A whole run, from the start.
-/

namespace KernelConsole

namespace Kernel

open Prog

variable {σ α : Type}

/-- What an operation writes of its own, in units, given what it returns. Nothing is
    written before the console is installed, but that the serial port is missing
    while it is brought up. -/
def Op.Units (installed : Bool) : Op σ → Result → List (List UInt8) → Prop
  | .init _, .settled (.ok ()), units =>
      units = [] ∨ installed = false ∧ units = [utf8 Console.serialMissingText]
  | .output bytes, _, units => units = if installed then bytes.map fun byte => [byte] else []
  | .print text, _, units => units = if installed then [utf8 text] else []
  | .readLine _ _, .line none, units => installed = false ∧ units = []
  | .readLine prompt buffer, .line (some result), units => installed = true ∧
      ∃ bytes, LineBuffer.Dialogue prompt buffer result bytes ∧ units = [bytes]
  | .readLine _ _, _, _ => False
  | _, _, units => units = []

/-- The operation has brought up the console. -/
def Op.installs : Op σ → Result → Bool
  | .init _, .settled (.ok ()) => true
  | _, _ => false

/-- What several operations write of their own. -/
inductive AllUnits : Bool → List (Op σ) → List Result → List (List UInt8) → Prop
  | nil {installed : Bool} : AllUnits installed [] [] []
  | cons {installed : Bool} {op : Op σ} {ops : List (Op σ)} {r : Result} {rs : List Result}
      {us vs : List (List UInt8)} : op.Units installed r us →
      AllUnits (installed || op.installs r) ops rs vs →
      AllUnits installed (op :: ops) (r :: rs) (us ++ vs)

/-- Only the operation itself brings up the console, and nothing in it. -/
def Op.AtTop (op : Op σ) : Prop := (∃ settings, op = .init settings) ∨ op.NoInit

section Kinds

variable {op : Op σ} {u : Usage} {use : Console.Use Unit} {r : Result}

theorem Op.installs_of_usage (h : op.usage? = some u) (r : Result) : op.installs r = false := by
  cases op <;> cases h
  all_goals rfl

theorem Op.installs_of_look (h : op.look? = some use) : op.installs r = false := by
  cases op <;> cases h
  all_goals rfl

theorem Op.installs_of_lockless (h : op.Lockless) : op.installs r = false := by
  cases op <;> first | rfl | exact absurd h not_false

/-- The units of an operation that uses the console are what its uses write. -/
theorem Op.units_of_usage (h : op.usage? = some u) {installed : Bool}
    {values : List (Option u.α)} {texts : List (Option (List UInt8))}
    (hwrite : Console.Use.AllWrite installed u.all values texts) :
    op.Units installed (u.result values) (texts.flatMap Option.toList) := by
  -- Uses that never write anything have no units, with a console or without.
  have hsilent : ∀ {α : Type} {use : Console.Use α} {values : List (Option α)},
      (∀ a own, use.Writes a own → own = none) → ∀ n,
        Console.Use.AllWrite installed (List.replicate n use) values texts →
          texts.flatMap Option.toList = [] := by
    intro α use values huse n hnone
    rw [hnone.texts_replicate huse, ite_self]
    exact List.flatMap_eq_nil_iff.2 fun own hown => by rw [List.eq_of_mem_replicate hown]; rfl
  cases op <;> cases h
  case output bytes =>
    rw [hwrite.texts_eq Console.Use.output (fun byte => some [byte]) (fun _ _ _ h => h) bytes,
      List.flatMap_map]
    cases installed with
    | true => exact List.map_eq_flatMap.symm
    | false => exact List.flatMap_eq_nil_iff.2 fun _ _ => rfl
  case input count => exact hsilent (fun _ _ h => h) count hwrite
  case readLine prompt buffer =>
    cases hwrite with
    | used hyes hown hrest =>
        cases hrest
        rcases hown with ⟨bytes, hdialogue, rfl⟩
        exact ⟨hyes, bytes, hdialogue, rfl⟩
    | absent hno hrest =>
        cases hrest
        exact ⟨hno, rfl⟩
  case print text =>
    rw [hwrite.texts_replicate (fun _ _ h => h) 1]
    cases installed <;> rfl
  case getByte => exact hsilent (fun _ _ h => h) 1 hwrite
  case setColor foreground background => exact hsilent (fun _ _ h => h) 1 hwrite
  case clearScreen => exact hsilent (fun _ _ h => h) 1 hwrite

/-- A device interrupt writes no unit of its own. -/
theorem Op.units_of_look {installed : Bool} (h : op.look? = some use) :
    op.Units installed r [] := by
  cases op <;> cases h
  all_goals rfl

theorem Op.units_of_lockless {installed : Bool} (h : op.Lockless) :
    op.Units installed r [] := by
  cases op <;> first | rfl | exact absurd h not_false

/-- Looking at a device writes nothing. -/
theorem Op.writes_of_look (h : op.look? = some use) {a : Unit} {own : Option (List UInt8)}
    (hown : use.Writes a own) : own = none := by
  cases op <;> cases h
  all_goals exact hown

end Kinds

section Programs

variable {hw : Handler Hardware σ}
  {perform : Op σ → Journaled σ → Except Halt (Result × Journaled σ)} {fuel : Nat}

/-- A log call, from rest to rest: what waits in the backlog is written out before
    the line is. -/
theorem log_rest (hnests : Nests perform) {call : LogCall σ} {s : Journaled σ} {p : List UInt8}
    (hrest : AtRest s.1 p) (hasking : asking s.2 = some call) (hcall : call.message.NoInit) :
    (log call.level call.target call.message.pieces).Ensures (Journaled.respond hw perform) fuel s
      fun _ s' => Rests s p [] s' := by
  rcases hrest.none_or_free with ⟨_, hbarred⟩ | ⟨c, hfree⟩
  · -- no console: the line goes into the backlog
    have hallowed : call.message.Each (Allowed s.1) :=
      call.message.each_imp (fun _ h => .inr h) (call.message.each_noInit hcall)
    exact ensures_mono (log_barred hnests hbarred hallowed hasking) fun _ _ h => h.rests hrest
  · -- the console is free: the line is written at once, behind the backlog
    refine ensures_bind (ensures_mono logEnabled_still fun enabled s₁ ⟨hstill, _⟩ => ?_)
    by_cases henabled : enabled = true
    · rw [if_pos henabled]
      rcases hrest.backlog with ⟨b, hbacklog, _, hcontents⟩
      refine ensures_mono (logPassed_free hnests (hstill.world ▸ hfree)
        (hstill.asking.trans hasking)) fun _ s' ⟨r, records, hwrites, ⟨c', hput⟩, hkept, _,
          ⟨calls, hcalls, hmatch⟩, hsent⟩ => ?_
      rw [hstill.world, hbacklog] at hkept hsent
      rw [hstill.acquired] at hcalls
      rw [hstill.sent] at hsent
      -- The ledger gets the backlog, the line, and what was logged while that was written.
      refine ⟨?_, linesOf records, .dump (p.rtake Ring.capacity) :: .line r :: records.map .kept,
        ⟨?_, (.console, call) :: calls.map (Prod.mk .backlog), hcalls,
          .cons ⟨rfl, hwrites⟩ (forall₂_fits_backlog hmatch)⟩, ?_, own_kept [] records, ?_⟩
      · exact (congrArg Option.isSome hput).trans (congrArg Option.isSome hfree).symm
      · rw [hsent, List.flatMap_cons, List.flatMap_cons, wire_kept, List.append_nil,
          List.append_assoc]
        exact congrArg (fun dumped => sent s.2 ++ (dumped ++ _)) hcontents
      · exact .dump (.line (Orderly.keptAll [] records))
      · refine atRest_free hput ?_
        rw [hkept]
        rcases Ring.contents_drain b.pending with ⟨hbounded, hempty⟩
        exact backlog_withLines (p := []) records ⟨_, rfl, hbounded, hempty⟩
    · rw [if_neg henabled]
      exact ensures_pure (hstill.nested.rests hrest)

/-- Bringing up the console goes from rest to rest, and may say that no serial port answers. -/
theorem init_rest (hnests : Nests perform) (settings : Settings) {s : Journaled σ}
    {p : List UInt8} (hrest : AtRest s.1 p) :
    (Kernel.init settings).Ensures (Journaled.respond hw perform) fuel s fun r s' =>
      ∃ us q, Advances s p us s' q ∧
        match r with
        | .ok () => installed s'.1 = true ∧
            (us = [] ∨ installed s.1 = false ∧ us = [utf8 Console.serialMissingText])
        | .error _ => installed s'.1 = installed s.1 ∧ us = [] := by
  refine ensures_bind (ensures_call fun v s₁ hreply => ensures_done ?_)
  have hnested := idle_nested (r := .isInstalled) trivial hreply
  rcases hnested.rests hrest with ⟨hinstalled₁, q₁, hadvances₁⟩
  have hv : v = installed s.1 := by
    cases hreply
    rfl
  by_cases hyes : v = true
  · rw [if_pos hyes]
    exact ensures_pure ⟨[], q₁, hadvances₁, (hinstalled₁.trans hv.symm).trans hyes, .inl rfl⟩
  · rw [if_neg hyes]
    have hno : installed s.1 = false := by
      rw [← hv]
      exact Bool.eq_false_iff.2 hyes
    cases hsettings : Console.ofSettings settings with
    | error fault => exact ensures_pure ⟨[], q₁, hadvances₁, hinstalled₁, rfl⟩
    | ok c =>
        have hnone : s₁.1.shared.console = none :=
          Option.isSome_eq_false_iff.1 (hinstalled₁.trans hno) |> Option.isNone_iff_eq_none.1
        -- Nobody can have a console that is not installed yet, so what runs while it is
        -- brought up sends nothing.
        have hrest₁ := hadvances₁.atRest
        have hbarred : Barred s₁.1 := .inr ⟨hnone, hrest₁.armed hnone⟩
        refine ensures_bind (ensures_withLogger (ensures_mono ((hears_barred hnests hbarred).init c
          (.refl _)) fun c₂ s₂ ⟨hkept, hsent⟩ => ?_))
        refine ensures_bind (ensures_call fun _ s₃ hreply₃ => ensures_done ?_)
        -- Nobody else has installed one meanwhile.
        have hnone₂ : s₂.1.shared.console = none := by
          rcases hkept with ⟨_, hkeeps⟩
          exact hkeeps.console.trans hnone
        cases install_none hnone₂ hreply₃
        let us := if c₂.uart.present then [] else [utf8 Console.serialMissingText]
        have hus : us.flatten =
            if c₂.uart.present then [] else utf8 Console.serialMissingText := by
          by_cases hpresent : c₂.uart.present = true
          · rw [if_pos hpresent]
            exact congrArg List.flatten (if_pos hpresent)
          · rw [if_neg hpresent, ← List.append_nil (utf8 _)]
            exact congrArg List.flatten (if_neg hpresent)
        rcases advances_putBack c₂ hrest₁ hkept rfl rfl (hus ▸ hsent) with ⟨q₂, hput⟩
        have hinstall : Advances s₁ q₁ us
            ((putBack s₂ c₂).1, .service (.install c₂) () :: s₂.2) q₂ := hput.congr rfl rfl rfl
        refine ensures_bind (ensures_mono (flushDeferred_rest hnests hinstall.atRest rfl)
          fun _ s₄ ⟨hinstalled₄, q₃, hflush⟩ => ?_)
        refine ensures_pure ⟨us, q₃, ?_, hinstalled₄, ?_⟩
        · have hall := (hadvances₁.trans hinstall).trans hflush
          rw [List.append_nil] at hall
          exact hall
        · by_cases hpresent : c₂.uart.present = true
          · exact .inl (if_pos hpresent)
          · exact .inr ⟨hno, if_neg hpresent⟩

/-- Whoever holds the console sends what it writes of its own. -/
theorem logged_held (hnests : Nests perform) (use : Console.Use α) (c : Console)
    {s : Journaled σ} (hheld : s.1.shared.console = some .held) :
    (use.logged c).Ensures (Journaled.respond hw perform) fuel s fun v s' =>
      Kept s s' ∧ ∃ own, use.Writes v.1 own ∧ sent s'.2 = sent s.2 ++ own.getD [] :=
  ensures_withLogger (use.drive_sends (hears_barred hnests (.inl hheld)) c (.refl s))

/-- Using the console once writes one unit, if it writes at all and there is a console. -/
theorem use_rest (hnests : Nests perform) (use : Console.Use α) {s : Journaled σ}
    {p : List UInt8} (hrest : AtRest s.1 p) :
    (withConsole use.logged).Ensures (Journaled.respond hw perform) fuel s fun a s' =>
      ∃ own, Console.Use.AllWrite (installed s.1) [use] [a] [own] ∧ Rests s p own.toList s' := by
  refine ensures_mono (withConsole_rest (U := fun a us => ∃ own, use.Writes a own ∧
    us = own.toList) hnests (fun c s₁ hheld => ?_) hrest)
    fun a s' ⟨hinstalled, hsome, us, q, hadvances, hus⟩ => ?_
  · refine ensures_mono (logged_held hnests use c hheld)
      fun v s₂ ⟨hkept, own, hown, hsent⟩ => ⟨hkept, own.toList, ⟨own, hown, rfl⟩, ?_⟩
    rw [hsent]
    cases own with
    | none => rfl
    | some text => rw [Option.toList_some, List.flatten_singleton, Option.getD_some]
  · cases a with
    -- Without a console there is no use and no unit.
    | none =>
        subst hus
        exact ⟨none, .absent hsome.symm .nil, hinstalled, q, hadvances⟩
    | some a =>
        rcases hus with ⟨own, hown, rfl⟩
        exact ⟨own, .used hsome.symm hown .nil, hinstalled, q, hadvances⟩

/-- Using the console several times writes their units in order. -/
theorem useAll_rest (hnests : Nests perform) (uses : List (Console.Use α)) {s : Journaled σ}
    {p : List UInt8} (hrest : AtRest s.1 p) :
    (useAll uses).Ensures (Journaled.respond hw perform) fuel s fun values s' =>
      ∃ texts, Console.Use.AllWrite (installed s.1) uses values texts ∧
        Rests s p (texts.flatMap Option.toList) s' := by
  induction uses generalizing s p with
  | nil => exact ensures_pure ⟨[], .nil, rfl, p, .refl hrest⟩
  | cons use rest ih =>
      refine ensures_bind (ensures_mono (use_rest hnests use hrest)
        fun a s₁ ⟨own, hown, hinstalled, q, hadvances⟩ => ?_)
      refine ensures_bind (ensures_mono (ih hadvances.atRest)
        fun values s₂ ⟨texts, htexts, hothers⟩ => ensures_pure ?_)
      rw [hinstalled] at htexts
      exact ⟨own :: texts, hown.cons htexts, hadvances.rests hinstalled hothers⟩

/-- Every operation goes from rest to rest, and writes its own units in order. -/
theorem program_rest (hnests : Nests perform) (op : Op σ) (hop : op.AtTop) {s : Journaled σ}
    {p : List UInt8} (hrest : AtRest s.1 p) :
    op.program.Ensures (Journaled.respond hw perform) fuel (s.1, .enter op :: s.2) fun r s' =>
      ∃ us q, Advances s p us s' q ∧ op.Units (installed s.1) r us ∧
        installed s'.1 = (installed s.1 || op.installs r) := by
  have hstart : Advances s p [] (s.1, .enter op :: s.2) p := (Advances.refl hrest).congr rfl rfl rfl
  -- An operation that installs nothing only has to account for its units.
  have hdone : ∀ {r us s'}, op.Units (installed s.1) r us → op.installs r = false →
      Rests (s.1, .enter op :: s.2) p us s' → ∃ us q, Advances s p us s' q ∧
        op.Units (installed s.1) r us ∧ installed s'.1 = (installed s.1 || op.installs r) := by
    intro r us s' hunits hinstalls hrests
    rcases hstart.rests rfl hrests with ⟨hinstalled, q, hadvances⟩
    refine ⟨us, q, hadvances, hunits, ?_⟩
    rw [hinstalls, Bool.or_false]
    exact hinstalled
  cases op.shape with
  | init settings =>
      refine ensures_map (ensures_mono (init_rest hnests settings hrest)
        fun outcome s' ⟨us, q, hadvances, houtcome⟩ => ⟨us, q, hstart.trans hadvances, ?_⟩)
      cases outcome with
      | error fault =>
          rcases houtcome with ⟨hinstalled, hus⟩
          exact ⟨hus, hinstalled.trans (Bool.or_false _).symm⟩
      | ok _ =>
          rcases houtcome with ⟨hinstalled, hus⟩
          exact ⟨hus, hinstalled.trans (Bool.or_true _).symm⟩
  | uses husage =>
      rw [Op.program_of_usage husage]
      exact ensures_map (ensures_mono (useAll_rest hnests _ hrest) fun values s' ⟨_, htexts, h⟩ =>
        hdone (Op.units_of_usage husage htexts) (Op.installs_of_usage husage _) h)
  | looks hlook =>
      rw [Op.program_of_look hlook]
      refine ensures_bind (ensures_mono (interrupt_rest hnests (fun c s₁ hheld => ?_) hrest
        (asking_enter (Op.not_isLog_of_look hlook) _))
        fun _ s' h => ensures_pure (hdone (Op.units_of_look hlook) (Op.installs_of_look hlook) h))
      refine ensures_map (ensures_mono (logged_held hnests _ c hheld)
        fun v s₂ ⟨hkept, own, hown, hsent⟩ => ⟨hkept, ?_⟩)
      rw [hsent, Op.writes_of_look hlook hown]
      exact List.append_nil _
  | log level target message =>
      have hcall : message.NoInit := hop.resolve_left nofun
      let start : Journaled σ := (s.1, .enter (.log level target message) :: s.2)
      have hasking : asking start.2 = some ⟨level, target, message⟩ := rfl
      exact ensures_bind (ensures_mono (log_rest (s := start) hnests hrest hasking hcall)
        fun _ s' h => ensures_pure (hdone rfl rfl h))
  | flushLog =>
      have hask : ∀ v s₁, Journaled.respond hw perform (.service .hasLogger)
          (s.1, .enter .flushLog :: s.2) = .ok (v, s₁) →
            Rests (s.1, .enter .flushLog :: s.2) p [] s₁ := fun v s₁ hreply =>
        (idle_nested (r := .hasLogger) trivial hreply).rests hrest
      refine ensures_flushLog (fun s₁ hreply => ?_) fun s₁ hreply =>
        hdone rfl rfl (hask false s₁ hreply)
      rcases hask true s₁ hreply with ⟨hinstalled, q, hadvances⟩
      refine ensures_mono (flushDeferred_rest hnests hadvances.atRest ?_) fun _ s' h =>
        hdone rfl rfl (hadvances.rests hinstalled h)
      obtain ⟨_, _, rfl⟩ := service_reply hreply
      rfl
  | flushDeferred =>
      exact ensures_bind (ensures_mono (flushDeferred_rest hnests hrest rfl)
        fun _ s' h => ensures_pure (hdone rfl rfl h))
  | lockless hlockless =>
      -- These ask for no lock, so it is all the same who has the console.
      have honly : op.program.Only (Bare fun inside => s.1.shared.console = none →
          inside.NoInit) := by
        refine lockless_only hlockless fun countdown inside harm _ => ?_
        subst harm
        exact hop.resolve_left nofun
      refine ensures_mono (honly.ensures (K := Nested (s.1, .enter op :: s.2)) bare_nested
        (.refl _)) fun r s' h => hdone ?_ ?_ (h.rests hrest)
      · exact Op.units_of_lockless hlockless
      · exact Op.installs_of_lockless hlockless

end Programs

theorem perform_rest {hw : Handler Hardware σ} {fuel : Nat} {op : Op σ} (hop : op.AtTop)
    {s s' : Journaled σ} {p : List UInt8} (hrest : AtRest s.1 p) {r : Result}
    (hrun : Journaled.perform hw fuel op s = .ok (r, s')) :
    ∃ us q, Advances s p us s' q ∧ op.Units (installed s.1) r us ∧
      installed s'.1 = (installed s.1 || op.installs r) := by
  cases fuel with
  | zero => exact nomatch hrun
  | succ fuel =>
      rcases bind_eq_ok.1 hrun with ⟨⟨v, t⟩, hprogram, hend⟩
      cases hend
      obtain ⟨us, q, hadvances, hunits, hinstalled⟩ :=
        program_rest (nests_perform hw fuel) op hop hrest _ _ hprogram
      exact ⟨us, q, hadvances.congr rfl rfl rfl, hunits, hinstalled⟩

theorem performAll_rest {hw : Handler Hardware σ} {fuel : Nat} (ops : List (Op σ))
    (hops : ∀ op ∈ ops, op.AtTop) {s s' : Journaled σ} {p : List UInt8} (hrest : AtRest s.1 p)
    {results : List Result} (hrun : Journaled.performAll hw fuel ops s = .ok (results, s')) :
    ∃ us q, Advances s p us s' q ∧ AllUnits (installed s.1) ops results us := by
  -- Each operation starts from the rest that the one before left behind.
  induction ops generalizing s p results with
  | nil =>
      cases hrun
      exact ⟨[], p, .refl hrest, .nil⟩
  | cons op rest ih =>
      rcases bind_eq_ok.1 hrun with ⟨⟨r, t⟩, hfirst, hothers⟩
      rcases bind_eq_ok.1 hothers with ⟨⟨rs, u⟩, hrest', hend⟩
      cases hend
      obtain ⟨us, q, hadvances, hunits, hinstalled⟩ :=
        perform_rest (hops op List.mem_cons_self) hrest hfirst
      obtain ⟨vs, q', hadvances', hall⟩ :=
        ih (fun op' hop' => hops op' (List.mem_cons_of_mem _ hop')) hadvances.atRest hrest'
      rw [hinstalled] at hall
      exact ⟨us ++ vs, q', hadvances.trans hadvances', .cons hunits hall⟩

/-- Whatever runs inside the operations of a kernel, from its start on, what it
    sends is a sequence of whole units. The backlog is written out as the newest
    512 bytes of whole lines, and the records come in the order in which their log
    calls got hold of a sink. -/
theorem units_never_interleave (hw : Handler Hardware σ) (fuel : Nat) {ops : List (Op σ)}
    {w w' : World σ} {results : List Result} (hconsole : w.shared.console = none)
    (hbacklog : w.shared.backlog = .free .empty) (harmed : w.NoInit)
    (hops : ∀ op ∈ ops, op.AtTop) (hrun : w.performAll hw fuel ops = .ok (results, w')) :
    ∃ journal ledger pending,
      Journaled.performAll hw fuel ops (w, []) = .ok (results, w', journal) ∧
      sent journal = ledger.flatMap Entry.wire ∧
      Orderly [] ledger pending ∧
      List.Forall₂ Fits (acquired journal) (ledger.filterMap Entry.record?) ∧
      AllUnits false ops results (ledger.filterMap Entry.own?) ∧
      ∃ b, w'.shared.backlog = .free b ∧ b.pending.contents = pending.rtake Ring.capacity := by
  have hrest : AtRest w [] :=
    ⟨by rw [hconsole]; exact nofun, fun _ => harmed, _, hbacklog, Ring.bounded_empty,
      Ring.contents_empty⟩
  have hforget := Journaled.performAll_forget hw fuel ops (w, [])
  rw [hrun] at hforget
  rcases bind_eq_ok.1 hforget with ⟨⟨rs, w₁, journal⟩, hjournal, hsame⟩
  cases hsame
  -- The journal changes nothing, so the run has one, and from it the ledger is read.
  obtain ⟨us, q, ⟨ledger, hbooks, horder, hown, hend⟩, hunits⟩ :=
    performAll_rest ops hops (s := (w, [])) hrest hjournal
  rcases hbooks.calls with ⟨calls, hacquired, hfits⟩
  rcases hend.backlog with ⟨b, hfree, _, hcontents⟩
  refine ⟨journal, ledger, q, hjournal, hbooks.sent, horder, ?_, ?_, b, hfree, hcontents⟩
  · rw [hacquired]
    exact hfits
  · rw [hown, ← show installed w = false from congrArg Option.isSome hconsole]
    exact hunits

/-- Hardware that is always ready to take a byte, and has none to give. -/
def alwaysReady : Bus Unit
  | .readReg (.uart _ .lineStatus), _ => (Uart.transmitReady, ())
  | .readReg (.printer _ .status), _ => (Printer.ready, ())
  | .readReg _, _ => (0, ())
  | .writeReg _ _, _ => ((), ())
  | .readCell _, _ => (0, ())
  | .writeCell _ _, _ => ((), ())

/-- A record from before there is a console, and one from an interrupt inside an
    output. -/
def loggedInside : List (Op Unit) :=
  [.installLogger (.upTo .info), .log .info "a" (.text "b" .done), .init {},
    .arm 1 (.log .info "c" .done), .output [0x41]]

theorem units_never_interleave_logged_inside :
    ∃ results w' journal ledger pending,
      Journaled.performAll alwaysReady.handler 4 loggedInside ({ machine := () }, []) =
        .ok (results, w', journal) ∧
      sent journal = utf8 "[INFO] a: b\nA[INFO] c: \n" ∧
      sent journal = ledger.flatMap Entry.wire ∧
      Orderly [] ledger pending ∧
      AllUnits false loggedInside results (ledger.filterMap Entry.own?) := by
  have hbytes : ((Journaled.performAll alwaysReady.handler 4 loggedInside
      ({ machine := () }, [])).toOption.map fun v => sent v.2.2) =
        some (utf8 "[INFO] a: b\nA[INFO] c: \n") := by
    decide +kernel
  rcases Option.map_eq_some_iff.1 hbytes with ⟨⟨results, w', journal⟩, hsome, hsent⟩
  have hjournal := eq_ok_of_toOption hsome
  have hrun : World.performAll alwaysReady.handler 4 loggedInside { machine := () } =
      .ok (results, w') := by
    rw [← Journaled.performAll_forget _ _ _ ({ machine := () }, []), hjournal]
    rfl
  have htop : ∀ op ∈ loggedInside, op.AtTop := by
    intro op hop
    simp only [loggedInside, List.mem_cons, List.not_mem_nil, or_false] at hop
    rcases hop with rfl | rfl | rfl | rfl | rfl
    · exact .inr trivial
    · exact .inr trivial
    · exact .inl ⟨_, rfl⟩
    · exact .inr trivial
    · exact .inr trivial
  have harmed : World.NoInit (σ := Unit) { machine := () } := fun _ h => absurd h List.not_mem_nil
  obtain ⟨_, ledger, pending, hsame, hwire, horder, _, hunits, _⟩ :=
    units_never_interleave alwaysReady.handler 4 rfl rfl harmed htop hrun
  rw [hjournal] at hsame
  cases hsame
  exact ⟨results, w', journal, ledger, pending, hjournal, hsent, hwire, horder, hunits⟩

end Kernel

end KernelConsole
