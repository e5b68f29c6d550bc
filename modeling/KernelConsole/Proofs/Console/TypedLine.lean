import KernelConsole.Proofs.Console.Editing
import KernelConsole.Proofs.Console.Termination
import KernelConsole.Proofs.Kernel.Ledger

/-!
# A Line That Is Typed

A line editor without a console: the line is a list, a byte takes its last one back or
is put behind it, and what was done is echoed. It knows the size of the buffer and
nothing of what is in it.

Reading a line on a console is this editor, for whatever bytes the console reads. They
are taken one by one, with the echo of each written before the next is waited for, and
the first that ends the line is the last that is taken. The buffer holds the line, and
past the longest the line has been it is as it was.

Where a byte comes from may hang on what was written before it, as the hardware may be
anything. So the bytes are those that a reader is given who writes what the editor says.

## Main definitions

* `TypedLine.next`, `TypedLine.echo`: What a byte does to a line, and what is echoed.
* `LineBuffer.Holds`: A buffer holds the line of some bytes, and is else as it was.
* `Console.Delivers`: The bytes that a reader is given, one after the other.
* `Console.Types`: They are taken, and their echo is written.
* `Bus.Sends`: A program ends and sends some bytes.

## Theorems

* `LineBuffer.line_after`, `LineBuffer.echo_eq`: The buffer is edited as the line is.
* `LineBuffer.holds_foldl_after`: The buffer after some bytes.
* `Bus.sends_bind`, `Bus.sends_iterate`: The rules for what is sent.
* `Console.Delivers.reads`: The bytes up to the end of the line are taken.
* `Console.readLine_types_line`: Reading a line, from the prompt to the newline.
-/

namespace KernelConsole

open Prog

variable {σ : Type} {bus : Bus σ}

namespace TypedLine

/-- The byte ends a line. -/
def Ends (byte : UInt8) : Prop := byte = 0x0A ∨ byte = 0x0D

/-- The byte takes the last one back. -/
def Erases (byte : UInt8) : Prop := byte = 0x08 ∨ byte = 0x7F

/-- The byte is put behind a line, if the buffer leaves room for one byte more. -/
def Appends (size : Nat) (line : List UInt8) (byte : UInt8) : Prop :=
  0x20 ≤ byte ∧ byte ≤ 0x7E ∧ line.length < size - 1

instance (byte : UInt8) : Decidable (Ends byte) := inferInstanceAs (Decidable (_ ∨ _))

instance (byte : UInt8) : Decidable (Erases byte) := inferInstanceAs (Decidable (_ ∨ _))

instance (size : Nat) (line : List UInt8) (byte : UInt8) : Decidable (Appends size line byte) :=
  inferInstanceAs (Decidable (_ ∧ _))

/-- The line after a byte. -/
def next (size : Nat) (line : List UInt8) (byte : UInt8) : List UInt8 :=
  if Erases byte then line.dropLast
  else if Appends size line byte then line ++ [byte]
  else line

/-- What is echoed of a byte that does not end the line. -/
def echo (size : Nat) (line : List UInt8) (byte : UInt8) : List UInt8 :=
  if Erases byte then (if line = [] then [] else [0x08])
  else if Appends size line byte then [byte]
  else []

/-- What is echoed of bytes, one after the other. -/
def echoes (size : Nat) (line : List UInt8) : List UInt8 → List UInt8
  | [] => []
  | byte :: rest => echo size line byte ++ echoes size (next size line byte) rest

/-- The line of some bytes. -/
def of (size : Nat) (keys : List UInt8) : List UInt8 := keys.foldl (next size) []

theorem isErase_iff (byte : UInt8) : LineBuffer.isErase byte = true ↔ Erases byte := by
  rw [LineBuffer.isErase, Bool.or_eq_true, beq_iff_eq, beq_iff_eq, Erases]

theorem isEnd_iff (byte : UInt8) : LineBuffer.isEnd byte = true ↔ Ends byte := by
  rw [LineBuffer.isEnd, Bool.or_eq_true, beq_iff_eq, beq_iff_eq, Ends]

/-- A line never gets longer than the buffer without its last byte. -/
theorem length_next {size : Nat} {line : List UInt8} (h : line.length ≤ size - 1) (byte : UInt8) :
    (next size line byte).length ≤ size - 1 := by
  unfold next
  split
  · rw [List.length_dropLast]
    omega
  · split
    · rename_i happends
      rw [List.length_append, List.length_singleton]
      exact happends.2.2
    · exact h

theorem length_foldl_next {size : Nat} (keys : List UInt8) {line : List UInt8}
    (h : line.length ≤ size - 1) : (keys.foldl (next size) line).length ≤ size - 1 := by
  induction keys generalizing line with
  | nil => exact h
  | cons key rest ih => exact ih (length_next h key)

end TypedLine

namespace LineBuffer

open TypedLine

theorem appends_iff (b : LineBuffer) (byte : UInt8) :
    Appends b.bytes.size b.line byte ↔ isPrintable byte = true ∧ b.HasRoom := by
  have hprintable : isPrintable byte = true ↔ 0x20 ≤ byte ∧ byte ≤ 0x7E := by
    rw [isPrintable, Bool.and_eq_true, decide_eq_true_iff, decide_eq_true_iff,
      UInt8.lt_iff_toNat_lt, UInt8.le_iff_toNat_le (b := 0x7E)]
    exact and_congr_right fun _ => Nat.lt_succ_iff
  rw [hprintable, HasRoom, Appends, b.length_line, and_assoc]
  exact and_congr_right fun _ => and_congr_right fun _ => by omega

/-- What a byte asks for, by the rules of the editor. -/
theorem editFor_rules (b : LineBuffer) (byte : UInt8) :
    match b.editFor byte with
    | .erase => Erases byte ∧ b.line ≠ []
    | .finish => Ends byte
    | .append _ => ¬Ends byte ∧ ¬Erases byte ∧ Appends b.bytes.size b.line byte
    | .ignore => ¬Ends byte ∧ ¬Appends b.bytes.size b.line byte ∧ (Erases byte → b.line = []) := by
  have hline : 0 < b.length ↔ b.line ≠ [] := by rw [← List.length_pos_iff, length_line]
  have herase : (isErase byte && decide (0 < b.length)) = true ↔ Erases byte ∧ b.line ≠ [] := by
    rw [Bool.and_eq_true, isErase_iff, decide_eq_true_iff, hline]
  unfold editFor
  by_cases herases : Erases byte ∧ b.line ≠ []
  · rw [if_pos (herase.2 herases)]
    exact herases
  · rw [if_neg fun h => herases (herase.1 h)]
    by_cases hends : Ends byte
    · rw [if_pos ((isEnd_iff byte).2 hends)]
      exact hends
    · rw [if_neg fun h => hends ((isEnd_iff byte).1 h)]
      by_cases happends : Appends b.bytes.size b.line byte
      · rw [dif_pos ((b.appends_iff byte).1 happends)]
        refine ⟨hends, ?_, happends⟩
        -- no printable byte takes one back
        rcases happends with ⟨hlow, hhigh, _⟩
        rintro (rfl | rfl)
        · exact absurd hlow (by decide)
        · exact absurd hhigh (by decide)
      · rw [dif_neg fun h => happends ((b.appends_iff byte).2 h)]
        exact ⟨hends, happends, fun h => Classical.not_not.1 fun hne => herases ⟨h, hne⟩⟩

/-- A byte that ends the line does nothing else. -/
theorem next_ends {size : Nat} {line : List UInt8} {byte : UInt8} (h : Ends byte) :
    next size line byte = line := by
  rcases h with rfl | rfl
  · rw [next, if_neg (by decide), if_neg fun h => absurd h.1 (by decide)]
  · rw [next, if_neg (by decide), if_neg fun h => absurd h.1 (by decide)]

/-- A byte does to the line in a buffer what it does to a line. -/
theorem line_after (b : LineBuffer) (byte : UInt8) :
    (b.after byte).line = next b.bytes.size b.line byte := by
  have hrules := b.editFor_rules byte
  unfold after
  cases hedit : b.editFor byte with
  | erase =>
      rw [hedit] at hrules
      rw [next, if_pos hrules.1]
      exact b.line_erase
  | finish =>
      rw [hedit] at hrules
      exact (next_ends hrules).symm
  | append room =>
      rw [hedit] at hrules
      rw [next, if_neg hrules.2.1, if_pos hrules.2.2]
      exact b.line_append byte room
  | ignore =>
      rw [hedit] at hrules
      rcases hrules with ⟨_, happends, hempty⟩
      by_cases herases : Erases byte
      · rw [next, if_pos herases, hempty herases]
        rfl
      · rw [next, if_neg herases, if_neg happends]

/-- A byte that does not end the line is echoed as the editor says. -/
theorem echo_eq (b : LineBuffer) {byte : UInt8} (hends : ¬Ends byte) :
    b.echo byte = TypedLine.echo b.bytes.size b.line byte := by
  have hrules := b.editFor_rules byte
  unfold echo
  cases hedit : b.editFor byte with
  | erase =>
      rw [hedit] at hrules
      rw [TypedLine.echo, if_pos hrules.1, if_neg hrules.2]
  | finish =>
      rw [hedit] at hrules
      exact absurd hrules hends
  | append room =>
      rw [hedit] at hrules
      rw [TypedLine.echo, if_neg hrules.2.1, if_pos hrules.2.2]
  | ignore =>
      rw [hedit] at hrules
      rcases hrules with ⟨_, happends, hempty⟩
      by_cases herases : Erases byte
      · rw [TypedLine.echo, if_pos herases, if_pos (hempty herases)]
      · rw [TypedLine.echo, if_neg herases, if_neg happends]

/-- A byte that ends the line is echoed as a newline. -/
theorem echo_ends (b : LineBuffer) {byte : UInt8} (hends : Ends byte) : b.echo byte = [0x0A] := by
  have hend := b.isEnd_of_editFor byte
  unfold echo
  cases hedit : b.editFor byte with
  | finish => rfl
  | _ =>
      rw [hedit, (isEnd_iff byte).2 hends] at hend
      cases hend

/-- A byte leaves alone what is past the line before it and after it. -/
theorem bytes_after (b : LineBuffer) (byte : UInt8) {i : Nat} (hi : (b.after byte).length ≤ i) :
    (b.after byte).bytes[i]? = b.bytes[i]? := by
  unfold after at hi ⊢
  cases hedit : b.editFor byte with
  | append room =>
      -- It is stored at the end of the line, which is then longer.
      rw [hedit] at hi
      exact Array.getElem?_set_ne (by unfold HasRoom at room; omega) (Nat.ne_of_lt hi)
  | _ => rfl

theorem line_foldl_after (b : LineBuffer) (keys : List UInt8) :
    (keys.foldl after b).line = keys.foldl (next b.bytes.size) b.line := by
  induction keys generalizing b with
  | nil => rfl
  | cons key rest ih =>
      rw [List.foldl_cons, List.foldl_cons, ih, size_after, line_after]

/-- Bytes leave alone what is past the longest the line has been. -/
theorem bytes_foldl_after (b : LineBuffer) (keys : List UInt8) {i : Nat}
    (hi : ∀ n, ((keys.take n).foldl after b).length ≤ i) :
    (keys.foldl after b).bytes[i]? = b.bytes[i]? := by
  induction keys generalizing b with
  | nil => rfl
  | cons key rest ih =>
      have hrest := ih (b.after key) fun n => hi (n + 1)
      exact hrest.trans (b.bytes_after key (hi 1))

/-- A buffer holds the line of some bytes, and is as it was where that line has never
    been. -/
structure Holds (b : LineBuffer) (buffer : Array UInt8) (keys : List UInt8) : Prop where
  /-- The first bytes are the line. -/
  line_eq : b.bytes.toList.take b.length = TypedLine.of buffer.size keys
  /-- They are as many as it has. -/
  length_eq : b.length = (TypedLine.of buffer.size keys).length
  /-- The buffer is as long as it was. -/
  size_eq : b.bytes.size = buffer.size
  /-- A byte stays free behind the line, but for a buffer that has none. -/
  length_lt : b.length + 1 ≤ buffer.size ∨ buffer.size = 0 ∧ b.length = 0
  /-- What is past the longest the line has been is as it was. -/
  kept : ∀ i, (∀ n, (TypedLine.of buffer.size (keys.take n)).length ≤ i) →
    b.bytes[i]? = buffer[i]?
  /-- The last byte is as it was. -/
  last_kept : b.bytes.back? = buffer.back?

theorem holds_foldl_after (buffer : Array UInt8) (keys : List UInt8) :
    (keys.foldl after (ofBytes buffer)).Holds buffer keys := by
  have hline : ∀ keys, (keys.foldl after (ofBytes buffer)).line = TypedLine.of buffer.size keys :=
    fun keys => line_foldl_after (ofBytes buffer) keys
  have hlength : ∀ keys, (keys.foldl after (ofBytes buffer)).length =
      (TypedLine.of buffer.size keys).length := fun keys => by rw [← hline, length_line]
  have hsize := size_foldl_after (ofBytes buffer) keys
  have hle : ∀ keys, (TypedLine.of buffer.size keys).length ≤ buffer.size - 1 :=
    fun keys => length_foldl_next keys (Nat.zero_le _)
  -- What is past the longest line was never written, by induction on the bytes.
  have hkept : ∀ i, (∀ n, (TypedLine.of buffer.size (keys.take n)).length ≤ i) →
      (keys.foldl after (ofBytes buffer)).bytes[i]? = buffer[i]? := by
    intro i hi
    exact bytes_foldl_after (ofBytes buffer) keys fun n => (hlength (keys.take n)).trans_le (hi n)
  refine ⟨hline keys, hlength keys, hsize, ?_, hkept, ?_⟩
  · have hlast := hle keys
    rw [← hlength keys] at hlast
    omega
  · rw [Array.back?, Array.back?, hsize]
    exact hkept _ fun n => hle (keys.take n)

end LineBuffer

namespace Bus

/-- What was sent up to a state that keeps the events. -/
def sentBy (s : (σ × List Event) × List Record) : List UInt8 := s.1.2.reverse.flatMap Event.sends

/-- A program ends on a bus, with a value and a state that the bus is left in, and sends
    some bytes. -/
def Sends {α : Type} (bus : Bus σ) (p : LoggedIo α) (m : σ) (a : α) (m₁ : σ)
    (bytes : List UInt8) : Prop :=
  ∃ fuel, ∀ s, s.1.1 = m → p.Returns bus.handler.observed fuel s fun b t =>
    b = a ∧ t.1.1 = m₁ ∧ sentBy t = sentBy s ++ bytes

variable {α β γ : Type} {m m₁ m₂ : σ} {a : α} {b : β} {c : γ} {xs ys : List UInt8}

/-- The events tell what was sent. -/
theorem hears_sentBy : Hears bus.handler.observed (fun _ => True) sentBy where
  access a s v s' _ hreply := by
    cases hreply
    refine ⟨trivial, ?_⟩
    simp only [sentBy, List.reverse_cons, List.flatMap_append, List.flatMap_singleton,
      Event.sends_of]
  report _ _ _ _ _ hreply := by
    cases hreply
    exact ⟨trivial, rfl⟩

theorem Sends.observe {p : LoggedIo α} (hp : bus.Sends p m a m₁ xs) :
    ∃ fuel events,
      bus.observe fuel p m = .ok (a, events, m₁) ∧ events.flatMap Event.sends = xs := by
  rcases hp with ⟨fuel, hruns⟩
  obtain ⟨_, t, hrun, rfl, rfl, hsent⟩ := hruns ((m, []), []) rfl
  refine ⟨fuel, t.1.2.reverse, ?_, hsent⟩
  unfold Bus.observe
  rw [hrun]
  rfl

/-- A program that ends and whose sending is known. -/
theorem Gives.sends {p : LoggedIo α} (hp : bus.Gives p m a m₁)
    (hsent : ∀ fuel s, p.Ensures bus.handler.observed fuel s fun _ t => sentBy t = sentBy s ++ xs) :
    bus.Sends p m a m₁ xs := by
  rcases gives_iff.1 hp with ⟨fuel, hrun⟩
  refine ⟨fuel, fun s hs => ?_⟩
  have hsame := run_observed bus fuel p s
  rw [hs, hrun] at hsame
  rcases bind_eq_ok.1 hsame with ⟨⟨b, t⟩, hobserved, hvalue⟩
  cases hvalue
  exact ⟨b, t, hobserved, rfl, rfl, hsent fuel s b t hobserved⟩

theorem sends_pure : bus.Sends (pure a : LoggedIo α) m a m [] :=
  ⟨0, fun _ hs => returns_pure ⟨rfl, hs, (List.append_nil _).symm⟩⟩

theorem sends_bind {p : LoggedIo α} {f : α → LoggedIo β} (hp : bus.Sends p m a m₁ xs)
    (hf : bus.Sends (f a) m₁ b m₂ ys) : bus.Sends (p >>= f) m b m₂ (xs ++ ys) := by
  rcases hp with ⟨k, hfirst⟩
  rcases hf with ⟨n, hrest⟩
  -- With the fuel of the longer one, both end.
  refine ⟨max k n, fun s hs => ?_⟩
  obtain ⟨_, t, hrun, rfl, ht, hxs⟩ := hfirst s hs
  obtain ⟨_, t₂, hrun₂, rfl, ht₂, hys⟩ := hrest t ht
  refine returns_bind ⟨_, t, run_mono _ (Nat.le_max_left k n) p hrun, _, t₂,
    run_mono _ (Nat.le_max_right k n) _ hrun₂, rfl, ht₂, ?_⟩
  rw [hys, hxs, List.append_assoc]

/-- A loop whose first round ends it. -/
theorem sends_iterate_last {body : β → LoggedIo (β ⊕ γ)}
    (hround : bus.Sends (body b) m (.inr c) m₁ xs) :
    bus.Sends (iterate body b) m c m₁ xs := by
  rcases hround with ⟨k, hround⟩
  refine ⟨k + 1, fun s hs => ?_⟩
  obtain ⟨_, t, hrun, rfl, ht, hxs⟩ := hround s hs
  have hmore := run_mono _ (Nat.le_succ k) _ hrun
  exact ⟨c, t, bind_eq_ok.2 ⟨_, bind_eq_ok.2 ⟨_, hmore, rfl⟩, rfl⟩, rfl, ht, hxs⟩

/-- A loop goes on after its first round. -/
theorem sends_iterate_next {body : β → LoggedIo (β ⊕ γ)} {b' : β}
    (hround : bus.Sends (body b) m (.inl b') m₁ xs)
    (hrest : bus.Sends (iterate body b') m₁ c m₂ ys) :
    bus.Sends (iterate body b) m c m₂ (xs ++ ys) := by
  rcases hround with ⟨k, hround⟩
  rcases hrest with ⟨n, hrest⟩
  -- One round more than the rest takes, and enough for what is in this one.
  refine ⟨max k n + 1, fun s hs => ?_⟩
  obtain ⟨_, t, hrun, rfl, ht, hxs⟩ := hround s hs
  obtain ⟨_, t₂, hrun₂, rfl, ht₂, hys⟩ := hrest t ht
  rcases bind_eq_ok.1 hrun₂ with ⟨v, hloop, hv⟩
  cases hv
  have hmore := run_mono _ (Nat.le_succ_of_le (Nat.le_max_left k n)) _ hrun
  have hloop' := repeatUntil_mono (fun b _ _ hb => run_mono bus.handler.observed
    (Nat.le_succ_of_le (Nat.le_max_right k n)) (body b) hb) (Nat.le_max_right k n) hloop
  refine ⟨_, _, bind_eq_ok.2 ⟨_, bind_eq_ok.2 ⟨_, hmore, hloop'⟩, rfl⟩, rfl, ht₂, ?_⟩
  rw [hys, hxs, List.append_assoc]

end Bus

namespace Console

open Bus TypedLine

/-- A reader is given some bytes, one after the other, who has a line so far and echoes
    every byte that does not end it before waiting for the next. -/
def Delivers (bus : Bus σ) (size : Nat) (line : List UInt8) (c : Console) (m : σ) :
    List UInt8 → Prop
  | [] => True
  | byte :: rest => ∃ c₁ m₁, bus.Gives c.blockingRead m (byte, c₁) m₁ ∧ (¬Ends byte →
      ∀ c₂ m₂, bus.Gives (c₁.writeBytes (echo size line byte)).unreported m₁ c₂ m₂ →
        Delivers bus size (next size line byte) c₂ m₂ rest)

/-- Some bytes are taken, one after the other, and the echo of each is written before the
    next is waited for. -/
inductive Types (bus : Bus σ) (size : Nat) :
    List UInt8 → Console → σ → List UInt8 → Console → σ → Prop
  | nil {line : List UInt8} {c : Console} {m : σ} : Types bus size line c m [] c m
  | cons {line rest : List UInt8} {byte : UInt8} {c c₁ c₂ c₃ : Console} {m m₁ m₂ m₃ : σ}
      (hread : bus.Gives c.blockingRead m (byte, c₁) m₁)
      (hecho : bus.Gives (c₁.writeBytes (echo size line byte)).unreported m₁ c₂ m₂)
      (hrest : Types bus size (next size line byte) c₂ m₂ rest c₃ m₃) :
      Types bus size line c m (byte :: rest) c₃ m₃

/-- From the prompt to the newline, some bytes and then a last one are taken, and no
    more. -/
def Consumes (bus : Bus σ) (size : Nat) (prompt : Option String) (c : Console) (m : σ)
    (keys : List UInt8) (last : UInt8) (c' : Console) (m' : σ) : Prop :=
  ∃ c₁ m₁ c₂ m₂ c₃ m₃, bus.Gives (c.writePrompt prompt).unreported m c₁ m₁ ∧
    Types bus size [] c₁ m₁ keys c₂ m₂ ∧ bus.Gives c₂.blockingRead m₂ (last, c₃) m₃ ∧
    bus.Gives (c₃.output 0x0A).unreported m₃ c' m'

variable {c c₁ c₂ : Console} {b : LineBuffer} {m m₁ m₂ : σ} {byte : UInt8}

/-- Waiting for a byte leaves the cursor alone. -/
theorem gives_blockingRead_onScreen (hread : bus.Gives c.blockingRead m (byte, c₁) m₁)
    (hcursor : c.screen.cursor.toNat < Screen.cells) :
    c₁.screen.cursor.toNat < Screen.cells := by
  rcases hread with ⟨fuel, events, hrun⟩
  rcases bind_eq_ok.1 hrun with ⟨⟨⟨_, _⟩, s⟩, hobserved, hvalue⟩
  cases hvalue
  rw [c.blockingRead_screen _ _ hobserved]
  exact hcursor

/-- Writing ends. -/
theorem writeBytes_ends (hcursor : c.screen.cursor.toNat < Screen.cells) (bytes : List UInt8)
    (m : σ) : bus.Ends (c.writeBytes bytes).unreported m := by
  have hreturns : (c.writeBytes bytes).Returns bus.handler 0 m _ := writeBytes_after bytes hcursor m
  rcases gives_of_returns hreturns with ⟨c₁, m₁, hgives, _⟩
  exact ⟨c₁, m₁, hgives⟩

/-- It changes nothing but the screen, and leaves the cursor there. -/
theorem gives_writeBytes {bytes : List UInt8}
    (hwrite : bus.Gives (c.writeBytes bytes).unreported m c₁ m₁)
    (hcursor : c.screen.cursor.toNat < Screen.cells) :
    ∃ screen, c₁ = { c with screen } ∧ screen.cursor.toNat < Screen.cells := by
  rcases gives_iff.1 hwrite with ⟨fuel, hrun⟩
  have hreturns : (c.writeBytes bytes).Returns bus.handler fuel m _ :=
    writeBytes_after bytes hcursor m
  -- Writing reports nothing, so the run is one of the hardware alone.
  rw [run_silent_unreported] at hrun
  exact hreturns.of_run hrun

/-- Waiting for a byte sends nothing. -/
theorem blockingRead_sends (hread : bus.Gives c.blockingRead m (byte, c₁) m₁) :
    bus.Sends c.blockingRead m (byte, c₁) m₁ [] :=
  hread.sends fun _ _ => ensures_mono
    (hears_sentBy.quiet (blockingRead_only looks_silent c) trivial) fun _ _ hsent =>
      hsent.2.trans (List.append_nil _).symm

theorem writeBytes_sends {bytes : List UInt8}
    (hwrite : bus.Gives (c.writeBytes bytes).unreported m c₁ m₁) :
    bus.Sends (c.writeBytes bytes).unreported m c₁ m₁ bytes :=
  hwrite.sends fun _ _ => ensures_mono (hears_sentBy.writeBytes bytes c trivial) fun _ _ hsent =>
    hsent.2.2

theorem writeBytes_singleton (c : Console) (byte : UInt8) :
    c.writeBytes [byte] = c.output byte := by
  simp only [writeBytes, bind_pure]

/-- A byte is read and edits the line, with its echo. -/
theorem editStep_sends (hread : bus.Gives c.blockingRead m (byte, c₁) m₁)
    (hecho : bus.Gives (c₁.writeBytes (b.echo byte)).unreported m₁ c₂ m₂) :
    bus.Sends (editStep (c, b)) m
      (if LineBuffer.isEnd byte then .inr (c₂, b) else .inl (c₂, b.after byte)) m₂
      (b.echo byte) := by
  have hedit : bus.Sends (c₁.edit b byte).unreported m₁
      (if LineBuffer.isEnd byte then .inr (c₂, b) else .inl (c₂, b.after byte)) m₂
      (b.echo byte ++ []) := by
    rw [edit_eq, Prog.unreported, interpret_bind]
    exact sends_bind (writeBytes_sends hecho) sends_pure
  rw [List.append_nil] at hedit
  exact sends_bind (blockingRead_sends hread) hedit

/-- The bytes up to the end of the line are taken and edit it, and its end is echoed as a
    newline. -/
theorem Delivers.reads {bytes : List UInt8}
    (hdelivers : c.Delivers bus b.bytes.size b.line m bytes)
    (hcursor : c.screen.cursor.toNat < Screen.cells) (hends : ∃ byte ∈ bytes, Ends byte) :
    ∃ keys last later, bytes = keys ++ last :: later ∧ (∀ key ∈ keys, ¬Ends key) ∧ Ends last ∧
      ∃ c₂ m₂ c₃ m₃ c' m', Types bus b.bytes.size b.line c m keys c₂ m₂ ∧
        bus.Gives c₂.blockingRead m₂ (last, c₃) m₃ ∧
        bus.Gives (c₃.output 0x0A).unreported m₃ c' m' ∧
        bus.Sends (iterate editStep (c, b)) m (c', keys.foldl LineBuffer.after b) m'
          (echoes b.bytes.size b.line keys ++ [0x0A]) := by
  induction bytes generalizing c b m with
  | nil =>
      obtain ⟨_, hmem, _⟩ := hends
      cases hmem
  | cons byte rest ih =>
      rcases hdelivers with ⟨c₁, m₁, hread, hgoes⟩
      have hcursor₁ := gives_blockingRead_onScreen hread hcursor
      -- The byte ends the line, or the line goes on with it and the rest follows by induction.
      by_cases hend : Ends byte
      · rcases writeBytes_ends hcursor₁ [0x0A] m₁ with ⟨c', m', hnewline⟩
        have hstep := editStep_sends (b := b) hread (b.echo_ends hend ▸ hnewline)
        rw [if_pos ((isEnd_iff byte).2 hend), b.echo_ends hend] at hstep
        rw [writeBytes_singleton] at hnewline
        exact ⟨[], byte, rest, rfl, nofun, hend, c, m, c₁, m₁, c', m', .nil, hread, hnewline,
          sends_iterate_last hstep⟩
      · rcases writeBytes_ends hcursor₁ (b.echo byte) m₁ with ⟨c₂, m₂, hecho⟩
        obtain ⟨_, rfl, hcursor₂⟩ := gives_writeBytes hecho hcursor₁
        have hstep := editStep_sends hread hecho
        rw [if_neg fun h => hend ((isEnd_iff byte).1 h)] at hstep
        rw [b.echo_eq hend] at hecho hstep
        -- The rest is delivered to the line after this byte.
        have hrest := hgoes hend _ m₂ hecho
        rw [← b.line_after byte, ← b.size_after byte] at hrest
        obtain ⟨_, hmem, hlast⟩ := hends
        have hlater : ∃ byte ∈ rest, Ends byte := by
          rcases List.mem_cons.1 hmem with rfl | hmem
          · exact absurd hlast hend
          · exact ⟨_, hmem, hlast⟩
        obtain ⟨keys, last, later, rfl, hkeys, hlast, c₃, m₃, c₄, m₄, c', m', htypes, hread',
          hnewline, hloop⟩ := ih hrest hcursor₂ hlater
        rw [b.line_after byte, b.size_after byte] at htypes hloop
        refine ⟨byte :: keys, last, later, rfl, ?_, hlast, c₃, m₃, c₄, m₄, c', m',
          .cons hread hecho htypes, hread', hnewline, ?_⟩
        · exact List.forall_mem_cons.2 ⟨hend, hkeys⟩
        · rw [echoes, List.append_assoc]
          exact sends_iterate_next hstep hloop

theorem writePrompt_eq (c : Console) (prompt : Option String) :
    c.writePrompt prompt = c.writeBytes (prompt.elim [] utf8) := by
  cases prompt <;> rfl

/-- Whatever is in the buffer and however long it is, and whatever bytes a reader is given
    that follow the prompt and the echo, among them one that ends a line:
    a line is read, by taking the bytes up to the first that ends it and no more;
    the buffer holds the line that the editor makes of the bytes before that one;
    and what is sent is the prompt, what the editor echoes, and a newline. -/
theorem readLine_types_line {c : Console} (hcursor : c.screen.cursor.toNat < Screen.cells)
    (prompt : Option String) (buffer : Array UInt8) (m : σ) {bytes : List UInt8}
    (hends : ∃ byte ∈ bytes, Ends byte)
    (hdelivers : ∀ c₁ m₁, bus.Gives (c.writePrompt prompt).unreported m c₁ m₁ →
      c₁.Delivers bus buffer.size [] m₁ bytes) :
    ∃ keys last later, bytes = keys ++ last :: later ∧ (∀ key ∈ keys, ¬Ends key) ∧ Ends last ∧
      ∃ fuel b c' events m',
        bus.observe fuel (c.readLine prompt buffer) m = .ok ((b, c'), events, m') ∧
        c.Consumes bus buffer.size prompt m keys last c' m' ∧
        b.Holds buffer keys ∧
        events.flatMap Event.sends =
          prompt.elim [] utf8 ++ echoes buffer.size [] keys ++ [0x0A] := by
  obtain ⟨c₁, m₁, hprompt⟩ : bus.Ends (c.writePrompt prompt).unreported m := by
    rw [writePrompt_eq]
    exact writeBytes_ends hcursor _ m
  have hwritten : bus.Gives (c.writeBytes (prompt.elim [] utf8)).unreported m c₁ m₁ := by
    rw [← writePrompt_eq]
    exact hprompt
  obtain ⟨_, rfl, hcursor₁⟩ := gives_writeBytes hwritten hcursor
  have hsent := writeBytes_sends hwritten
  rw [← writePrompt_eq] at hsent
  obtain ⟨keys, last, later, hbytes, hkeys, hlast, c₂, m₂, c₃, m₃, c', m', htypes, hread, hnewline,
    hloop⟩ := (hdelivers _ m₁ hprompt).reads (b := LineBuffer.ofBytes buffer) hcursor₁ hends
  have hline : bus.Sends (c.readLine prompt buffer) m _ m' _ :=
    sends_bind hsent (sends_bind hloop sends_pure)
  obtain ⟨fuel, events, hrun, hevents⟩ := hline.observe
  refine ⟨keys, last, later, hbytes, hkeys, hlast, fuel, _, c', events, m', hrun,
    ⟨_, m₁, c₂, m₂, c₃, m₃, hprompt, htypes, hread, hnewline⟩,
    LineBuffer.holds_foldl_after buffer keys, ?_⟩
  rw [hevents, List.append_nil, List.append_assoc]
  rfl

/-- Bytes that wait in the queue are taken from it, if no device has one. -/
theorem blockingRead_queued (hempty : Keyboard.IsEmpty bus (c.keyboard, m))
    (habsent : c.uart.present = false) {queue : ByteQueue}
    (hpop : c.queue.pop = (some byte, queue)) (hbyte : byte ≠ 0) :
    ∃ m₁, bus.Gives c.blockingRead m (byte, { c with queue }) m₁ := by
  have hkeyboard : c.keyboardInterrupt.Returns bus.silent 1 m fun d _ => d = c := by
    refine returns_iterate (fun _ d s => d = c ∧ s = m) Nat.zero_lt_one ⟨rfl, rfl⟩ ?_
    rintro k _ _ ⟨rfl, rfl⟩
    refine returns_bind (returns_mono (Keyboard.poll_none hempty) ?_)
    rintro _ s rfl
    exact returns_pure rfl
  have hserial : c.serialInterrupt = pure c := by
    rw [serialInterrupt, habsent]
    rfl
  have hinput : c.input.Returns bus.silent 1 m fun v _ => v = (some byte, { c with queue }) := by
    unfold input
    rw [hserial]
    refine returns_bind (returns_silent (returns_pure ?_))
    refine returns_bind (returns_mono hkeyboard ?_)
    rintro _ s rfl
    simp only [hpop]
    exact returns_pure rfl
  have hreturns : c.blockingRead.Returns bus.silent 1 m
      fun v _ => v = (byte, { c with queue }) := by
    refine returns_iterate (fun _ d s => d = c ∧ s = m) Nat.zero_lt_one ⟨rfl, rfl⟩ ?_
    rintro k _ _ ⟨rfl, rfl⟩
    refine returns_bind (returns_mono hinput ?_)
    rintro _ s rfl
    simp only [if_neg hbyte]
    exact returns_pure rfl
  obtain ⟨_, m₁, hrun, rfl⟩ := hreturns
  exact ⟨m₁, gives_iff.2 ⟨1, hrun⟩⟩

/-- If no device has a byte, the queue delivers what waits there. -/
theorem delivers_queued (hempty : ∀ k m, Keyboard.IsEmpty bus (k, m)) (size : Nat)
    (bytes : List UInt8) {c : Console} (hcursor : c.screen.cursor.toNat < Screen.cells)
    (habsent : c.uart.present = false) (hbounded : c.queue.Bounded)
    (hqueue : c.queue.contents = bytes) (hzero : ∀ byte ∈ bytes, byte ≠ 0) (line : List UInt8)
    (m : σ) : c.Delivers bus size line m bytes := by
  induction bytes generalizing c line m with
  | nil => trivial
  | cons byte rest ih =>
      rcases Ring.contents_pop Ring.wideEnough_word hbounded with ⟨hnone, _⟩ | ⟨first, hpop, hcons⟩
      · rw [hnone] at hqueue
        cases hqueue
      · obtain ⟨rfl, hrest⟩ := List.cons.inj (hcons.symm.trans hqueue)
        have hpair : c.queue.pop = (some first, c.queue.pop.2) := by rw [← hpop]
        rcases blockingRead_queued (hempty c.keyboard m) habsent hpair
          (hzero _ List.mem_cons_self) with ⟨m₁, hread⟩
        refine ⟨_, m₁, hread, fun _ c₂ m₂ hecho => ?_⟩
        obtain ⟨screen, rfl, hscreen⟩ := gives_writeBytes hecho hcursor
        exact ih (c := { c with screen, queue := c.queue.pop.2 }) hscreen habsent
          (Ring.bounded_pop Ring.wideEnough_word hbounded) hrest
          (fun byte hmem => hzero byte (List.mem_cons_of_mem _ hmem)) _ m₂

/-- A console at the last cell of the screen, with keys waiting that were pressed before
    and after the end of the line. -/
def typedAhead : Console :=
  { atLastCell with
    queue := Ring.empty.pushAll [0x08, 0x41, 0x42, 0x43, 0x7F, 0x0D, 0x44] }

/-- Backspace has nothing to take back, the third letter has no room, and delete takes
    back the second one. -/
theorem readLine_types_line_full_buffer :
    typedAhead.screen.cursor.toNat < Screen.cells ∧
    (∃ byte ∈ [0x08, 0x41, 0x42, 0x43, 0x7F, 0x0D, 0x44], Ends byte) ∧
    (∀ c₁ m₁, Screen.memoryBus.Gives (typedAhead.writePrompt (some ">")).unreported Memory.empty
        c₁ m₁ →
      c₁.Delivers Screen.memoryBus 3 [] m₁ [0x08, 0x41, 0x42, 0x43, 0x7F, 0x0D, 0x44]) ∧
    ∃ fuel b c' events m', Screen.memoryBus.observe fuel
        (typedAhead.readLine (some ">") #[1, 2, 3]) Memory.empty = .ok ((b, c'), events, m') ∧
      b.bytes.toList.take b.length = [0x41] ∧ b.length = 1 ∧ b.bytes.back? = some 3 ∧
      events.flatMap Event.sends = [0x3E, 0x41, 0x42, 0x08, 0x0A] := by
  have hcursor : typedAhead.screen.cursor.toNat < Screen.cells := by decide
  have hends : ∃ byte ∈ [0x08, 0x41, 0x42, 0x43, 0x7F, 0x0D, 0x44], Ends byte :=
    ⟨0x0D, by decide, Or.inr rfl⟩
  have hqueue := Ring.contents_pushAll Ring.wideEnough_word Ring.bounded_empty
    [0x08, 0x41, 0x42, 0x43, 0x7F, 0x0D, 0x44]
  have hdelivers : ∀ c₁ m₁,
      Screen.memoryBus.Gives (typedAhead.writePrompt (some ">")).unreported Memory.empty c₁ m₁ →
      c₁.Delivers Screen.memoryBus 3 [] m₁ [0x08, 0x41, 0x42, 0x43, 0x7F, 0x0D, 0x44] := by
    intro c₁ m₁ hprompt
    rw [writePrompt_eq] at hprompt
    obtain ⟨screen, rfl, hscreen⟩ := gives_writeBytes hprompt hcursor
    have hempty : ∀ k m, Keyboard.IsEmpty Screen.memoryBus (k, m) :=
      fun _ _ => (by decide : (0 : UInt8) &&& Keyboard.waiting = 0)
    have hzero : ∀ byte ∈ ([0x08, 0x41, 0x42, 0x43, 0x7F, 0x0D, 0x44] : List UInt8),
        byte ≠ 0 := by
      simp
    exact delivers_queued (c := { typedAhead with screen := screen }) hempty 3 _ hscreen rfl
      hqueue.1 hqueue.2 hzero [] m₁
  refine ⟨hcursor, hends, hdelivers, ?_⟩
  obtain ⟨keys, last, later, hbytes, hkeys, hlast, fuel, b, c', events, m', hrun, _, hholds,
    hsent⟩ := readLine_types_line hcursor (some ">") #[1, 2, 3] Memory.empty hends hdelivers
  -- The line has no end before the first byte that ends it.
  obtain rfl : [0x08, 0x41, 0x42, 0x43, 0x7F] = keys := by
    have hfirst := congrArg (List.takeWhile fun byte => decide ¬Ends byte) hbytes
    rw [List.takeWhile_append_of_pos fun key hkey => decide_eq_true (hkeys key hkey),
      List.takeWhile_cons_of_neg (a := last) fun h => of_decide_eq_true (p := ¬Ends last) h hlast,
      List.append_nil] at hfirst
    exact hfirst
  refine ⟨fuel, b, c', events, m', hrun, hholds.line_eq, hholds.length_eq, hholds.last_kept,
    hsent⟩

end Console

end KernelConsole
