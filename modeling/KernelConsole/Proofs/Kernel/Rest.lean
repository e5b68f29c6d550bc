import KernelConsole.Proofs.Kernel.Holding

/-!
# From Rest to Rest

Between two operations the kernel is at rest: nobody holds the console, nobody
holds the backlog, and what is in the backlog are the newest bytes of whole
lines. Whoever uses the console from there holds it for one unit, puts it back,
and writes out the backlog. What runs meanwhile only leaves lines in the backlog,
and so the ledger stays orderly.

## Main definitions

* `Kernel.AtRest`: Nobody holds anything.
* `Kernel.Books`: What a run adds to the ledger.
* `Kernel.Advances`, `Kernel.Rests`: From rest to rest.

## Theorems

* `Kernel.Advances.trans`, `Kernel.Advances.congr`: One after the other.
* `Kernel.Nested.rests`: Lines that are left behind.
* `Kernel.advances_putBack`: Units were written while nobody could have the
  console.
* `Kernel.flushDeferred_rest`, `withConsole_rest`, `interrupt_rest`: From rest to
  rest.
-/

namespace KernelConsole

namespace Kernel

open Prog

variable {σ α : Type}

/-- The console is installed. -/
def installed (w : World σ) : Bool := w.shared.console.isSome

/-- Nobody holds the console or the backlog, and what is in the backlog is what
    there was room for of the lines `pending`. -/
structure AtRest (w : World σ) (pending : List UInt8) : Prop where
  /-- Nobody holds the console. -/
  console : w.shared.console ≠ some .held
  /-- No interrupt to come brings up a console that is not there. -/
  armed : w.shared.console = none → w.NoInit
  /-- Nobody holds the backlog, and the newest lines are in it. -/
  backlog : ∃ b, w.shared.backlog = .free b ∧ b.pending.Bounded ∧
    b.pending.contents = pending.rtake Ring.capacity

/-- A console that lies free is at rest, as long as the backlog is. -/
theorem atRest_free {w : World σ} {c : Console} {p : List UInt8}
    (hfree : w.shared.console = some (.free c))
    (hbacklog : ∃ b, w.shared.backlog = .free b ∧ b.pending.Bounded ∧
      b.pending.contents = p.rtake Ring.capacity) : AtRest w p where
  console := by
    rw [hfree]
    exact nofun
  armed := by
    rw [hfree]
    exact nofun
  backlog := hbacklog

/-- A log call got hold of a sink, and its record went there. -/
def Fits (x : Sink × LogCall σ) (y : Sink × Record) : Prop := x.1 = y.1 ∧ x.2.Writes y.2

/-- What was sent from one moment to another is what the entries send, and the
    log calls that got hold of a sink are those of the entries, in their order. -/
structure Books (s s' : Journaled σ) (entries : List Entry) : Prop where
  /-- What was sent. -/
  sent : sent s'.2 = sent s.2 ++ entries.flatMap Entry.wire
  /-- The log calls. -/
  calls : ∃ calls, acquired s'.2 = acquired s.2 ++ calls ∧
    List.Forall₂ Fits calls (entries.filterMap Entry.record?)

theorem Books.trans {s t u : Journaled σ} {es fs : List Entry} (hes : Books s t es)
    (hfs : Books t u fs) : Books s u (es ++ fs) where
  sent := by rw [hfs.sent, hes.sent, List.flatMap_append, List.append_assoc]
  calls := by
    rcases hes.calls with ⟨cs, hcs, hfit⟩
    rcases hfs.calls with ⟨ds, hds, hfit'⟩
    refine ⟨cs ++ ds, by rw [hds, hcs, List.append_assoc], ?_⟩
    rw [List.filterMap_append]
    exact List.rel_append hfit hfit'

/-- Records that went into the backlog fit the log calls that they came from. -/
theorem forall₂_fits_backlog {calls : List (LogCall σ)} {records : List Record}
    (h : List.Forall₂ LogCall.Writes calls records) :
    List.Forall₂ Fits (calls.map (Prod.mk .backlog))
      ((records.map Entry.kept).filterMap Entry.record?) := by
  induction h with
  | nil => exact .nil
  | cons hwrites _ ih => exact .cons ⟨rfl, hwrites⟩ ih

/-- A line that is kept is not sent. -/
theorem wire_kept (records : List Record) :
    (records.map Entry.kept).flatMap Entry.wire = [] := by
  rw [List.flatMap_map, List.flatMap_eq_nil_iff]
  exact fun _ _ => rfl

/-- Units that were sent and lines that were left behind make up books. -/
theorem Books.own_kept {s s' : Journaled σ} {records : List Record} (units : List (List UInt8))
    (hcalls : ∃ calls, acquired s'.2 = acquired s.2 ++ calls.map (Prod.mk .backlog) ∧
      List.Forall₂ LogCall.Writes calls records)
    (hsent : Kernel.sent s'.2 = Kernel.sent s.2 ++ units.flatten) :
    Books s s' (units.map Entry.own ++ records.map Entry.kept) where
  sent := by
    have hown : (units.map Entry.own).flatMap Entry.wire = units.flatten := by
      rw [List.flatMap_map, List.flatten_eq_flatMap]
      rfl
    rw [hsent, List.flatMap_append, hown, wire_kept, List.append_nil]
  calls := by
    rcases hcalls with ⟨calls, hacquired, hmatch⟩
    have hown : (units.map Entry.own).filterMap Entry.record? = [] := by
      rw [List.filterMap_eq_nil_iff]
      intro e he
      rcases List.mem_map.1 he with ⟨bytes, _, rfl⟩
      rfl
    -- Only lines that were kept come from log calls.
    refine ⟨_, hacquired, ?_⟩
    rw [List.filterMap_append, hown, List.nil_append]
    exact forall₂_fits_backlog hmatch

/-- From rest with lines `p` pending to rest with lines `q` pending, an orderly
    ledger was added in which the operations' own units are `units`. -/
def Advances (s : Journaled σ) (p : List UInt8) (units : List (List UInt8)) (s' : Journaled σ)
    (q : List UInt8) : Prop :=
  ∃ entries, Books s s' entries ∧ Orderly p entries q ∧
    entries.filterMap Entry.own? = units ∧ AtRest s'.1 q

theorem Advances.atRest {s s' : Journaled σ} {p q : List UInt8} {units : List (List UInt8)}
    (h : Advances s p units s' q) : AtRest s'.1 q := by
  rcases h with ⟨_, _, _, _, hrest⟩
  exact hrest

theorem Advances.trans {s t u : Journaled σ} {p q r : List UInt8} {us vs : List (List UInt8)}
    (hst : Advances s p us t q) (htu : Advances t q vs u r) : Advances s p (us ++ vs) u r := by
  rcases hst with ⟨es, hes, horder, hown, _⟩
  rcases htu with ⟨fs, hfs, horder', hown', hrest⟩
  refine ⟨es ++ fs, hes.trans hfs, horder.append horder', ?_, hrest⟩
  rw [List.filterMap_append, hown, hown']

/-- A backlog that holds the newest of some lines holds the newest of those and more, once
    these are in it. -/
theorem backlog_withLines {l : Lock Backlog} {p : List UInt8} (records : List Record)
    (h : ∃ b, l = .free b ∧ b.pending.Bounded ∧ b.pending.contents = p.rtake Ring.capacity) :
    ∃ b, withLines l records = .free b ∧ b.pending.Bounded ∧
      b.pending.contents = (p ++ linesOf records).rtake Ring.capacity := by
  rcases h with ⟨b, rfl, hbounded, hcontents⟩
  obtain ⟨hbounded', hcontents'⟩ :=
    Ring.contents_pushAll Ring.wideEnough_word hbounded (linesOf records)
  refine ⟨_, rfl, hbounded', ?_⟩
  -- What was pushed out before would be pushed out now.
  rw [hcontents', hcontents, Ring.rtake_append_rtake]

theorem own_kept (units : List (List UInt8)) (records : List Record) :
    (units.map Entry.own ++ records.map Entry.kept).filterMap Entry.own? = units := by
  have hkept : (records.map Entry.kept).filterMap Entry.own? = [] := by
    rw [List.filterMap_eq_nil_iff]
    intro e he
    rcases List.mem_map.1 he with ⟨r, _, rfl⟩
    rfl
  have hown : (units.map Entry.own).filterMap Entry.own? = units := by
    rw [List.filterMap_map]
    exact List.filterMap_some
  rw [List.filterMap_append, hkept, hown, List.append_nil]

theorem orderly_own_kept (p : List UInt8) (units : List (List UInt8)) (records : List Record) :
    Orderly p (units.map Entry.own ++ records.map Entry.kept) (p ++ linesOf records) := by
  induction units with
  | nil => exact Orderly.keptAll p records
  | cons _ _ ih => exact .own ih

/-- The same without a word on what is pending in the end, and nothing was
    installed meanwhile. -/
def Rests (s : Journaled σ) (p : List UInt8) (units : List (List UInt8)) (s' : Journaled σ) :
    Prop :=
  installed s'.1 = installed s.1 ∧ ∃ q, Advances s p units s' q

/-- A stretch that advances, and then one that rests, rest. -/
theorem Advances.rests {s t u : Journaled σ} {p q : List UInt8} {us vs : List (List UInt8)}
    (hst : Advances s p us t q) (hinstalled : installed t.1 = installed s.1)
    (htu : Rests t q vs u) : Rests s p (us ++ vs) u := by
  rcases htu with ⟨hinstalled', r, hadvances⟩
  exact ⟨hinstalled'.trans hinstalled, r, hst.trans hadvances⟩

/-- What runs where there is no console leaves lines behind, and the kernel at
    rest. -/
theorem Nested.rests {s s' : Journaled σ} {p : List UInt8} (h : Nested s s')
    (hrest : AtRest s.1 p) : Rests s p [] s' := by
  rcases h with ⟨records, hkeeps, hsent⟩
  refine ⟨congrArg Option.isSome hkeeps.console, p ++ linesOf records, _,
    Books.own_kept [] hkeeps.calls (hsent.trans (List.append_nil _).symm),
    orderly_own_kept p [] records, own_kept [] records, ?_, ?_, ?_⟩
  · rw [hkeeps.console]
    exact hrest.console
  · rw [hkeeps.console]
    exact fun hnone => hkeeps.armed hnone (hrest.armed hnone)
  · rw [hkeeps.backlog]
    exact backlog_withLines records hrest.backlog

theorem Advances.refl {s : Journaled σ} {p : List UInt8} (hrest : AtRest s.1 p) :
    Advances s p [] s p :=
  ⟨[], ⟨(List.append_nil _).symm, [], (List.append_nil _).symm, .nil⟩, .nil p, rfl, hrest⟩

/-- It does not matter what else the journal says of the end. -/
theorem Advances.congr {s s' u : Journaled σ} {p q : List UInt8} {units : List (List UInt8)}
    (h : Advances s p units s' q) (hworld : u.1 = s'.1) (hsent : sent u.2 = sent s'.2)
    (hacquired : acquired u.2 = acquired s'.2) : Advances s p units u q := by
  rcases h with ⟨entries, hbooks, horder, hown, hrest⟩
  -- The ledger is the same, as it is about what was sent and who got a sink.
  refine ⟨entries, ⟨hsent.trans hbooks.sent, ?_⟩, horder, hown, hworld ▸ hrest⟩
  rw [hacquired]
  exact hbooks.calls

/-- The moment after somebody put the console back. -/
def putBack (s : Journaled σ) (c : Console) : Journaled σ :=
  ({ s.1 with shared := { s.1.shared with console := some (.free c) } },
    .service (.unlockConsole c) () :: s.2)

/-- While nobody could have the console, units were written and lines left behind.
    Then it was put back. -/
theorem advances_putBack {s t s' : Journaled σ} {p : List UInt8} {units : List (List UInt8)}
    (c : Console) (hrest : AtRest s.1 p) (hkept : Kept t s')
    (hbacklog : t.1.shared.backlog = s.1.shared.backlog) (hacquired : acquired t.2 = acquired s.2)
    (hsent : sent s'.2 = sent s.2 ++ units.flatten) :
    ∃ q, Advances s p units (putBack s' c) q := by
  rcases hkept with ⟨records, hkeeps⟩
  -- Taking the console got nobody a sink, so the books may begin before that.
  have hbooks : Books s (putBack s' c) (units.map Entry.own ++ records.map Entry.kept) := by
    refine Books.own_kept units ?_ hsent
    rw [← hacquired]
    exact hkeeps.calls
  refine ⟨p ++ linesOf records, _, hbooks, orderly_own_kept p units records,
    own_kept units records, atRest_free rfl ?_⟩
  change ∃ b, s'.1.shared.backlog = _ ∧ _
  rw [hkeeps.backlog, hbacklog]
  exact backlog_withLines records hrest.backlog

section Programs

variable {hw : Handler Hardware σ}
  {perform : Op σ → Journaled σ → Except Halt (Result × Journaled σ)} {fuel : Nat}

/-- Who installs a console where there is none puts it where a console is put
    back. -/
theorem install_none {c : Console} {s s' : Journaled σ} {v : (Service.install c).Reply}
    (hnone : s.1.shared.console = none)
    (hrun : Journaled.respond hw perform (.service (.install c)) s = .ok (v, s')) :
    s' = ((putBack s c).1, .service (.install c) () :: s.2) := by
  cases hrun
  simp only [putBack, hnone]

/-- At rest, the console lies free, or there is none and nothing will bring it up. -/
theorem AtRest.none_or_free {w : World σ} {p : List UInt8} (h : AtRest w p) :
    (w.shared.console = none ∧ Barred w) ∨ ∃ c, w.shared.console = some (.free c) := by
  cases hconsole : w.shared.console with
  | none => exact .inl ⟨rfl, .inr ⟨hconsole, h.armed hconsole⟩⟩
  | some lock =>
      cases lock with
      | free c => exact .inr ⟨c, rfl⟩
      | held => exact absurd hconsole h.console

/-- A flush goes from rest to rest, with all that was pending in one entry. -/
theorem flushDeferred_rest (hnests : Nests perform) {s : Journaled σ} {p : List UInt8}
    (hrest : AtRest s.1 p) (hasking : asking s.2 = none) :
    flushDeferred.Ensures (Journaled.respond hw perform) fuel s fun _ s' => Rests s p [] s' := by
  rcases hrest.none_or_free with ⟨_, hbarred⟩ | ⟨c, hfree⟩
  · exact ensures_mono (flushDeferred_barred hbarred) fun _ _ h => h.rests hrest
  · -- the console is free: the ledger gets one entry, and nothing is pending after it
    rcases hrest.backlog with ⟨b, hbacklog, _, hcontents⟩
    refine ensures_bind (ensures_call fun v s₁ hreply => ensures_done ?_)
    rcases tryLockConsole_free hreply hfree with ⟨rfl, rfl⟩
    refine ensures_bind (ensures_mono (flushOnto_held hnests c rfl rfl) fun c' s₂ hflush => ?_)
    rcases hflush with ⟨_, hdrained, hacquired, hsent⟩
    refine ensures_call fun _ s₃ hreply₃ => ensures_done ?_
    cases hreply₃
    simp only [taken, hbacklog, emptied, waiting] at hdrained hsent
    refine ⟨(congrArg Option.isSome hfree).symm, [], [.dump (p.rtake Ring.capacity)],
      ⟨?_, [], ?_, .nil⟩, .dump (.nil []), rfl, atRest_free rfl ⟨_, hdrained, ?_⟩⟩
    · simp only [sent, hsent, hcontents, List.flatMap_cons, List.flatMap_nil, Entry.wire,
        List.append_nil]
    · simp only [acquired, hacquired, taken, hasking, Option.toList_none, List.map_nil,
        List.append_nil]
    · rcases Ring.contents_drain b.pending with ⟨hbounded, hempty⟩
      exact ⟨hbounded, hempty⟩

theorem holding_rest {use : Console → KernelIo σ (α × Console)}
    {U : α → List (List UInt8) → Prop} {s : Journaled σ} {p : List UInt8}
    (huse : ∀ c s₁, s₁.1.shared.console = some .held →
      (use c).Ensures (Journaled.respond hw perform) fuel s₁ fun v s₂ =>
        Kept s₁ s₂ ∧ ∃ us, U v.1 us ∧ sent s₂.2 = sent s₁.2 ++ us.flatten)
    (hrest : AtRest s.1 p) :
    (holding use).Ensures (Journaled.respond hw perform) fuel s fun r s' =>
      asking s'.2 = none ∧ installed s'.1 = installed s.1 ∧ r.isSome = installed s.1 ∧
        ∃ us q, Advances s p us s' q ∧ r.elim (us = []) fun a => U a us := by
  refine ensures_bind (ensures_call fun v s₁ hreply => ensures_done ?_)
  rcases hrest.none_or_free with ⟨hnone, hbarred⟩ | ⟨c, hfree⟩
  · -- no console: nothing is used
    rcases lockConsole_nested hbarred hreply with ⟨rfl, hnested⟩
    rcases lockConsole_barred hbarred hreply with ⟨_, rfl⟩
    rcases hnested.rests hrest with ⟨hinstalled, q, hadvances⟩
    exact ensures_pure
      ⟨rfl, hinstalled, (congrArg Option.isSome hnone).symm, [], q, hadvances, rfl⟩
  · -- the console is free: it is held while it is used, and free again after that
    rcases lockConsole_free hreply hfree with ⟨rfl, rfl⟩
    refine ensures_bind (ensures_mono (huse c _ rfl) fun v s₂ ⟨hkept, us, hunits, hsent⟩ => ?_)
    refine ensures_bind (ensures_call fun _ s₃ hreply₃ => ensures_done ?_)
    cases hreply₃
    rcases advances_putBack v.2 hrest hkept rfl rfl hsent with ⟨q, hadvances⟩
    have hinstalled := (congrArg Option.isSome hfree).symm
    exact ensures_pure ⟨rfl, hinstalled, hinstalled, us, q, hadvances, hunits⟩

/-- Using the console and then writing out the backlog, from rest to rest. -/
theorem withConsole_rest (hnests : Nests perform) {use : Console → KernelIo σ (α × Console)}
    {U : α → List (List UInt8) → Prop} {s : Journaled σ} {p : List UInt8}
    (huse : ∀ c s₁, s₁.1.shared.console = some .held →
      (use c).Ensures (Journaled.respond hw perform) fuel s₁ fun v s₂ =>
        Kept s₁ s₂ ∧ ∃ us, U v.1 us ∧ sent s₂.2 = sent s₁.2 ++ us.flatten)
    (hrest : AtRest s.1 p) :
    (withConsole use).Ensures (Journaled.respond hw perform) fuel s fun r s' =>
      installed s'.1 = installed s.1 ∧ r.isSome = installed s.1 ∧
        ∃ us q, Advances s p us s' q ∧ r.elim (us = []) fun a => U a us := by
  refine ensures_bind (ensures_mono (holding_rest huse hrest)
    fun r s₁ ⟨hasking, hinstalled, hsome, us, q, hadvances, hunits⟩ => ?_)
  refine ensures_bind (ensures_mono (flushDeferred_rest hnests hadvances.atRest hasking)
    fun _ s₂ ⟨hinstalled₂, q', hflush⟩ => ?_)
  refine ensures_pure ⟨hinstalled₂.trans hinstalled, hsome, us, q', ?_, hunits⟩
  -- The flush after it has no units of its own.
  have hall := hadvances.trans hflush
  rw [List.append_nil] at hall
  exact hall

/-- An interrupt writes nothing but the backlog. -/
theorem interrupt_rest (hnests : Nests perform) {look : Console → KernelIo σ Console}
    {s : Journaled σ} {p : List UInt8}
    (hlook : ∀ c s₁, s₁.1.shared.console = some .held →
      (look c).Ensures (Journaled.respond hw perform) fuel s₁ fun _ s₂ =>
        Kept s₁ s₂ ∧ sent s₂.2 = sent s₁.2)
    (hrest : AtRest s.1 p) (hasking : asking s.2 = none) :
    (interrupt look).Ensures (Journaled.respond hw perform) fuel s fun _ s' => Rests s p [] s' := by
  rcases hrest.none_or_free with ⟨_, hbarred⟩ | ⟨c, hfree⟩
  · exact ensures_mono (interrupt_barred hbarred) fun _ _ h => h.rests hrest
  · -- The console is held while the devices are looked at, and put back before the flush.
    refine ensures_bind (ensures_bind (ensures_call fun v s₁ hreply => ensures_done ?_))
    rcases tryLockConsole_free hreply hfree with ⟨rfl, rfl⟩
    refine ensures_bind (ensures_mono (hlook c _ rfl) fun c' s₂ ⟨hkept, hsent⟩ => ?_)
    refine ensures_call fun _ s₃ hreply₃ => ensures_done ?_
    cases hreply₃
    have hacquired : acquired (.service .tryLockConsole (some c) :: s.2) = acquired s.2 := by
      simp only [acquired, hasking, Option.toList_none, List.map_nil, List.append_nil]
    have hnone : sent s₂.2 = sent s.2 ++ List.flatten [] :=
      hsent.trans (List.append_nil _).symm
    rcases advances_putBack c' hrest hkept rfl hacquired hnone with ⟨q, hadvances⟩
    refine ensures_mono (flushDeferred_rest hnests hadvances.atRest rfl) fun _ s₄ hrests => ?_
    rcases hrests with ⟨hinstalled, q', hflush⟩
    exact ⟨hinstalled.trans (congrArg Option.isSome hfree).symm, q', hadvances.trans hflush⟩

end Programs

end Kernel

end KernelConsole
