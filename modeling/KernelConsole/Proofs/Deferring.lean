import KernelConsole.Log.Backlog
import KernelConsole.Machine.Bench
import KernelConsole.Proofs.BoundedQueue
import KernelConsole.Proofs.Console.FanOut

/-!
# Writing Later

A record goes to the console, or it goes to the backlog and from there to the console
when the backlog is written out. The devices cannot tell which: they see the same
accesses, and the console ends in the same state, as long as the text fits. Of a text
that does not fit they see the newest 512 bytes, wherever that cuts a line.

Writing out leaves nothing behind, so what happens in one round of logging and writing
out has no part in the next. Only the slots and the positions of the ring go on from
round to round.

`Backlog.flushInto` takes all bytes out of the ring at once and then writes them.
Taking them one at a time, each written before the next is taken, makes the same run.

## Main definitions

* `Logged`: A record or a text.
* `Logged.bytes`: The bytes of several.
* `Backlog.addAll`, `Console.writeLogged`: Logging to the backlog, or to the console.
* `Backlog.rounds`: Logging and writing out, several times.
* `Backlog.chunks`: What those rounds write.
* `Backlog.popInto`: Writing out byte by byte.

## Theorems

* `Console.writeBytes_append`: Bytes are written in order.
* `Backlog.popInto_run`: Popping makes the run of `Backlog.flushInto`.
* `Backlog.rounds_eq`: Rounds are one piece of writing, and leave the backlog empty.
* `Backlog.deferred_agrees_with_direct`: The same accesses as without the backlog.
-/

namespace KernelConsole

/-- What is logged: a record, or a text as it stands. -/
inductive Logged
  | record (r : Record)
  | text (s : String)

/-- The text that is written for it. -/
def Logged.rendered : Logged → String
  | record r => r.line
  | text s => s

/-- The bytes of several, one after the other. -/
def Logged.bytes (items : List Logged) : List UInt8 :=
  items.flatMap fun item => utf8 item.rendered

namespace Ring

variable {w : Nat}

/-- Draining a ring that is empty does not move its positions. -/
theorem drain_of_contents_nil {r : Ring w} (h : r.contents = []) : r.drain.2 = r := by
  have hpos : r.readPos = r.writePos := eq_of_beq ((isEmpty_iff r).2 h)
  exact congrArg (fun pos => { r with readPos := pos }) hpos.symm

/-- Draining ends in the same place if a byte was popped before. -/
theorem drain_pop (r : Ring w) : r.pop.2.drain.2 = r.drain.2 := by
  unfold pop
  by_cases hempty : r.isEmpty = true
  · rw [if_pos hempty]
  · -- a pop moves only the position that draining sets
    rw [if_neg hempty]
    rfl

end Ring

namespace Console

/-- Writes something that is logged. -/
def writeOne (c : Console) : Logged → Io Console
  | .record r => c.writeRecord r
  | .text s => c.writeText s

/-- Writes what is logged, one after the other. -/
def writeLogged (c : Console) : List Logged → Io Console
  | [] => pure c
  | item :: rest => do
      let c ← c.writeOne item
      c.writeLogged rest

theorem writeBytes_append (c : Console) (xs ys : List UInt8) :
    c.writeBytes (xs ++ ys) = c.writeBytes xs >>= fun c => c.writeBytes ys := by
  induction xs generalizing c with
  | nil => exact (pure_bind _ _).symm
  | cons byte rest ih =>
      simp only [List.cons_append, writeBytes, bind_assoc]
      exact congrArg _ (funext fun c => ih c)

theorem writeOne_eq (c : Console) (item : Logged) :
    c.writeOne item = c.writeBytes (utf8 item.rendered) := by
  cases item with
  | record r => rfl
  | text s => rfl

theorem writeLogged_eq (c : Console) (items : List Logged) :
    c.writeLogged items = c.writeBytes (Logged.bytes items) := by
  induction items generalizing c with
  | nil => rfl
  | cons item rest ih =>
      simp only [writeLogged, Logged.bytes, List.flatMap_cons, writeBytes_append, writeOne_eq]
      exact congrArg _ (funext fun c => ih c)

end Console

namespace Backlog

/-- Adds something that is logged. -/
def add (b : Backlog) : Logged → Backlog
  | .record r => b.writeRecord r
  | .text s => b.write s

/-- Adds what is logged, one after the other. -/
def addAll (b : Backlog) (items : List Logged) : Backlog :=
  items.foldl add b

/-- Writes the oldest byte that waits, or stops if none does. -/
def popOne (v : Backlog × Console) : Io ((Backlog × Console) ⊕ (Backlog × Console)) :=
  match v.1.pending.pop with
  | (none, _) => pure (.inr v)
  | (some byte, pending) => do
      let c ← v.2.output byte
      pure (.inl (⟨pending⟩, c))

/-- Writes everything that waits to the console, one byte at a time. -/
def popInto (b : Backlog) (c : Console) : Io (Backlog × Console) :=
  .iterate popOne (b, c)

/-- Several rounds, each of logging to the backlog and writing it out. -/
def rounds (b : Backlog) (c : Console) : List (List Logged) → Io (Backlog × Console)
  | [] => pure (b, c)
  | items :: rest => do
      let (b, c) ← (b.addAll items).flushInto c
      b.rounds c rest

/-- What each of several rounds writes, if `waiting` waits before the first of them. -/
def chunks (waiting : List UInt8) : List (List Logged) → List (List UInt8)
  | [] => []
  | items :: rest => (waiting ++ Logged.bytes items).rtake Ring.capacity :: chunks [] rest

/-- To defer what is logged is to push its bytes. -/
theorem pending_addAll (b : Backlog) (items : List Logged) :
    (b.addAll items).pending = b.pending.pushAll (Logged.bytes items) := by
  induction items generalizing b with
  | nil => rfl
  | cons item rest ih =>
      have hadd : (b.add item).pending = b.pending.pushAll (utf8 item.rendered) := by
        cases item with
        | record r => rfl
        | text s => rfl
      rw [Logged.bytes, List.flatMap_cons, Ring.pushAll_append, ← hadd]
      exact ih (b.add item)

theorem flushInto_of_nil {b : Backlog} (h : b.pending.contents = []) (c : Console) :
    b.flushInto c = pure (b, c) := by
  rw [flushInto_eq, h, Ring.drain_of_contents_nil h]
  rfl

theorem flushInto_of_cons {b : Backlog} {byte : UInt8}
    (h : b.pending.contents = byte :: b.pending.pop.2.contents) (c : Console) :
    b.flushInto c = c.output byte >>= fun c => flushInto ⟨b.pending.pop.2⟩ c := by
  rw [flushInto_eq, h]
  simp only [flushInto_eq, Console.writeBytes, bind_assoc, Ring.drain_pop]

/-- A round of the loop writes the first of the bytes that wait and leaves the others, so
    it goes round once for each byte, and once more to find that there is none. -/
theorem popInto_run {σ : Type} (h : Handler Hardware σ) {fuel : Nat} {b : Backlog}
    (hb : b.pending.Bounded) (hfuel : b.pending.contents.length < fuel) (c : Console) (s : σ) :
    (b.popInto c).run h fuel s = (b.flushInto c).run h fuel s := by
  -- Only the number of rounds that are left goes down; the fuel of a round stays.
  suffices hloop : ∀ (n : Nat) (b : Backlog) (c : Console) (s : σ), b.pending.Bounded →
      b.pending.contents.length < n →
      repeatUntil (fun v s => (popOne v).run h fuel s) n (b, c) s =
        (b.flushInto c).run h fuel s by
    have hrun := hloop fuel b c s hb hfuel
    simp only [popInto, Prog.iterate, Prog.run, hrun]
    cases (b.flushInto c).run h fuel s with
    | error why => rfl
    | ok v => rfl
  intro n
  induction n with
  | zero =>
      intro b c s _ hn
      exact absurd hn (Nat.not_lt_zero _)
  | succ n ih =>
      intro b c s hb hn
      rcases Ring.contents_pop Ring.wideEnough_word hb with ⟨hnil, hpop⟩ | ⟨byte, hpop, hcons⟩
      · -- nothing waits: the loop stops, and there is nothing to write
        have hstop : popOne (b, c) = pure (.inr (b, c)) := by
          simp only [popOne, hpop]
        rw [flushInto_of_nil hnil, repeatUntil, hstop]
        rfl
      · have hround : popOne (b, c) =
            c.output byte >>= fun c => pure (.inl (⟨b.pending.pop.2⟩, c)) := by
          unfold popOne
          split
          · next hnone => rw [hnone] at hpop; cases hpop
          · next pending hsome =>
              rw [hsome] at hpop
              cases hpop
              rw [hsome]
        -- The byte that is taken makes up for the round.
        have hlen := congrArg List.length hcons
        rw [List.length_cons] at hlen
        rw [flushInto_of_cons hcons, repeatUntil, hround, Prog.run_bind, Prog.run_bind]
        cases c.output byte |>.run h fuel s with
        | error why => rfl
        | ok v =>
            exact ih ⟨b.pending.pop.2⟩ v.1 v.2 (Ring.bounded_pop Ring.wideEnough_word hb)
              (by simp only; omega)

/-- What a round of logging and writing out does: it writes the newest bytes of what
    waited and what came, and nothing waits any more. -/
theorem flushInto_addAll {b : Backlog} (hb : b.pending.Bounded) (items : List Logged) :
    ∃ left : Backlog, left.pending.Bounded ∧ left.pending.contents = [] ∧
      ∀ c : Console, (b.addAll items).flushInto c =
        c.writeBytes ((b.pending.contents ++ Logged.bytes items).rtake Ring.capacity) >>=
          fun c => pure (left, c) := by
  have hcontents := (Ring.contents_pushAll Ring.wideEnough_word hb (Logged.bytes items)).2
  rw [← pending_addAll] at hcontents
  rcases Ring.contents_drain (b.addAll items).pending with ⟨hbounded, hempty⟩
  -- The ring keeps the newest bytes, and draining it writes what it has kept.
  refine ⟨⟨(b.addAll items).pending.drain.2⟩, hbounded, hempty, fun c => ?_⟩
  rw [flushInto_eq, hcontents]

/-- Any rounds write their chunks one after the other. Nothing waits after the last of
    them, and the backlog they leave is the same for every console. -/
theorem rounds_eq (items : List (List Logged)) {b : Backlog} (hb : b.pending.Bounded) :
    ∃ left : Backlog, left.pending.Bounded ∧
      (b.pending.contents = [] ∨ items ≠ [] → left.pending.contents = []) ∧
      ∀ c : Console, b.rounds c items =
        c.writeBytes (chunks b.pending.contents items).flatten >>= fun c => pure (left, c) := by
  -- What waits before a round depends on the one before it, so the backlog varies.
  induction items generalizing b with
  | nil => exact ⟨b, hb, fun h => h.resolve_right (absurd rfl), fun c => rfl⟩
  | cons first rest ih =>
      rcases flushInto_addAll hb first with ⟨between, hbounded, hempty, hfirst⟩
      rcases ih hbounded with ⟨left, hleft, hnil, hrest⟩
      -- Nothing is left of the first round, so the others write what is logged in them alone.
      refine ⟨left, hleft, fun _ => hnil (.inl hempty), fun c => ?_⟩
      simp only [rounds, hfirst, bind_assoc, pure_bind, hrest, hempty, chunks,
        List.flatten_cons, Console.writeBytes_append]

/-- Chunks that fit are the text itself. -/
theorem chunks_of_fits {items : List (List Logged)}
    (h : ∀ round ∈ items, (Logged.bytes round).length ≤ Ring.capacity) :
    (chunks [] items).flatten = Logged.bytes items.flatten := by
  induction items with
  | nil => rfl
  | cons first rest ih =>
      have hfirst := h first List.mem_cons_self
      have hrest := ih fun round hround => h round (List.mem_cons_of_mem _ hround)
      rw [chunks, List.flatten_cons, hrest, List.nil_append, Ring.rtake_of_length_le hfirst,
        List.flatten_cons]
      exact List.flatMap_append.symm

/-- On every bus, rounds of logging to a backlog and writing it out make exactly the
    accesses of writing the bytes of their chunks to the console: what waited and what
    was logged, or the newest 512 bytes of that. The console ends in the same state, or
    halts alike, and the backlog ends empty. If nothing waited, and no round logs more
    than fits, these are the accesses of writing what is logged to the console itself. -/
theorem deferred_agrees_with_direct {b : Backlog} (hb : b.pending.Bounded)
    (items : List (List Logged)) :
    ∃ left : Backlog, left.pending.Bounded ∧ (items ≠ [] → left.isEmpty = true) ∧
      ∀ {σ : Type} (bus : Bus σ) (fuel : Nat) (c : Console) (m : σ),
        bus.trace fuel (b.rounds c items) m =
          (bus.trace fuel (c.writeBytes (chunks b.pending.contents items).flatten) m).map
            (fun (c, events, m) => ((left, c), events, m)) ∧
        (b.pending.contents = [] →
          (∀ round ∈ items, (Logged.bytes round).length ≤ Ring.capacity) →
          bus.trace fuel (b.rounds c items) m =
            (bus.trace fuel (c.writeLogged items.flatten) m).map
              fun (c, events, m) => ((left, c), events, m)) := by
  rcases rounds_eq items hb with ⟨left, hleft, hempty, hrounds⟩
  refine ⟨left, hleft, fun hne => ?_, fun bus fuel c m => ⟨?_, fun hnil hfits => ?_⟩⟩
  · rw [isEmpty, Ring.isEmpty_iff]
    exact hempty (.inr hne)
  -- The rounds are the writes of their chunks, and the backlog beside them is no access.
  · rw [hrounds, Bus.trace_bind_pure]
  · rw [hrounds, Bus.trace_bind_pure, hnil, chunks_of_fits hfits, Console.writeLogged_eq]

/-- Two bytes wait, the second of them in the first slot: the position after the last one
    has wrapped. -/
def wrapped : Backlog where
  pending :=
    { slots := ((Vector.replicate Ring.capacity 0).setIfInBounds 511 0x61).setIfInBounds 0 0x62
      readPos := 0xFFFFFFFFFFFFFFFF
      writePos := 1 }

/-- What waited is written in front of the first round, and not again in the second. -/
theorem deferred_agrees_with_direct_wrapped :
    wrapped.pending.Bounded ∧ empty.pending.Bounded ∧
    (∃ left : Backlog, left.isEmpty = true ∧
      Bench.respond.trace 1 (wrapped.rounds Console.lastCell
          [[.text "c", .record ⟨.info, "d", "e"⟩], [.text "f"]]) {} =
        (Bench.respond.trace 1 (Console.lastCell.writeBytes (utf8 "abc[INFO] d: e\nf")) {}).map
          fun (c, events, m) => ((left, c), events, m)) ∧
    ∃ left : Backlog, left.isEmpty = true ∧
      Bench.respond.trace 1 (empty.rounds Console.lastCell [[.record ⟨.info, "d", "e"⟩]]) {} =
        (Bench.respond.trace 1 (Console.lastCell.writeLogged [.record ⟨.info, "d", "e"⟩]) {}).map
          fun (c, events, m) => ((left, c), events, m) := by
  have hwrapped : wrapped.pending.Bounded := by
    rw [Ring.Bounded]
    decide
  have hempty : empty.pending.Bounded := Ring.bounded_empty
  refine ⟨hwrapped, hempty, ?_, ?_⟩
  · rcases deferred_agrees_with_direct hwrapped
      [[.text "c", .record ⟨.info, "d", "e"⟩], [.text "f"]] with ⟨left, _, hleft, hagrees⟩
    have hchunks : (chunks wrapped.pending.contents
        [[.text "c", .record ⟨.info, "d", "e"⟩], [.text "f"]]).flatten =
          utf8 "abc[INFO] d: e\nf" := by
      decide +kernel
    refine ⟨left, hleft (List.cons_ne_nil _ _), ?_⟩
    rw [← hchunks]
    exact (hagrees Bench.respond 1 Console.lastCell {}).1
  · rcases deferred_agrees_with_direct hempty [[.record ⟨.info, "d", "e"⟩]] with
      ⟨left, _, hleft, hagrees⟩
    refine ⟨left, hleft (List.cons_ne_nil _ _), ?_⟩
    exact (hagrees Bench.respond 1 Console.lastCell {}).2 Ring.contents_empty (by decide +kernel)

end Backlog

end KernelConsole
