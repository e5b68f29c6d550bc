import KernelConsole.Proofs.Console.Showing
import KernelConsole.Proofs.Console.Transmission

/-!
# The Line on the Screen

While a line is read, the screen shows it: the cells right before the cursor hold
the bytes of the buffer, what else the echo has written is blank, and what it has
not written is as the prompt left it.

The echo is followed on the tape of the screen, where the line never moves. It
may fill all rows of the screen but one. Then its first character is still there
when its last one scrolls the window, and so backspace can always go back to the
start of the line.

## Main definitions

* `Console.Editing`: A line is being edited and the next byte is about to be read.
* `Console.promptTape`: The tape of the screen after the prompt.
* `Console.ShowsLine`: The screen shows the line.
* `Console.Edited`: The line is edited, and a tape with its echo is on the screen.

## Theorems

* `LineBuffer.holdsLine_after`: An edit of the line and its echo go together.
* `Console.edit_shows`: The echo of an edit is on the screen.
* `Console.Edited.edit`: One byte leaves the line edited and its echo shown.
* `Console.readLine_editing`: A line that was read was edited until a byte ended it.
* `Console.edited_line_shown`: The screen shows the line at every point.
-/

namespace KernelConsole

open Prog

variable {σ : Type} {bus : Bus σ} {fuel : Nat}

namespace LineBuffer

theorem length_line (b : LineBuffer) : b.line.length = b.length := by
  rw [line, List.length_take, Array.length_toList]
  exact Nat.min_eq_left b.length_le

/-- A byte is stored right behind the line. -/
theorem line_append (b : LineBuffer) (byte : UInt8) (room : b.HasRoom) :
    (b.append byte room).line = b.line ++ [byte] := by
  have hlt : b.length < b.bytes.toList.length := by
    have hroom : b.length + 1 < b.bytes.size := room
    rw [Array.length_toList]
    omega
  simp only [line, append, Array.toList_set]
  rw [List.take_add_one, List.take_set_of_le (Nat.le_refl _), List.getElem?_set_self hlt]
  rfl

theorem line_erase (b : LineBuffer) : b.erase.line = b.line.dropLast := by
  rw [List.dropLast_eq_take, length_line, line, line, List.take_take]
  exact congrArg (List.take · _) (Nat.min_eq_left (Nat.sub_le _ _)).symm

/-- No byte changes the size of the buffer. -/
theorem size_after (b : LineBuffer) (byte : UInt8) : (b.after byte).bytes.size = b.bytes.size := by
  unfold after
  cases b.editFor byte with
  | append room => exact Array.size_set (by unfold HasRoom at room; omega)
  | _ => rfl

theorem size_foldl_after (b : LineBuffer) (keys : List UInt8) :
    (keys.foldl after b).bytes.size = b.bytes.size := by
  induction keys generalizing b with
  | nil => rfl
  | cons key rest ih => exact (ih (b.after key)).trans (b.size_after key)

/-- Only a line that is not empty has a byte taken back. -/
theorem length_pos_of_erase {b : LineBuffer} {byte : UInt8} (h : b.editFor byte = .erase) :
    0 < b.length := by
  unfold editFor at h
  by_cases herase : (isErase byte && decide (0 < b.length)) = true
  · exact of_decide_eq_true (Bool.and_eq_true_iff.1 herase).2
  · rw [if_neg herase] at h
    split at h
    · cases h
    · split at h <;> cases h

/-- Only a printable byte is added. -/
theorem isPrintable_of_append {b : LineBuffer} {byte : UInt8} {room : b.HasRoom}
    (h : b.editFor byte = .append room) : isPrintable byte = true := by
  unfold editFor at h
  split at h
  · cases h
  · split at h
    · cases h
    · split at h
      · rename_i hprintable
        exact hprintable.1
      · cases h

/-- A line on a tape is edited by the echo of a byte as the byte edits it in its
    buffer. -/
theorem holdsLine_after {t : Tape} {start : Nat} {b : LineBuffer} {written : Nat → Prop}
    (h : t.HoldsLine start b.line written) (ht : t.InWindow)
    (hfits : b.bytes.size ≤ Screen.cells - Screen.columns + 1) {byte : UInt8}
    (hopen : isEnd byte = false) :
    (t.putAll (b.echo byte)).HoldsLine start (b.after byte).line fun i =>
      written i ∨ t.Written (b.echo byte) i := by
  have hend := b.isEnd_of_editFor byte
  have hlength := b.length_le
  unfold echo after
  cases hedit : b.editFor byte with
  | erase =>
      -- Backspace is only echoed for a line that has a character to take back.
      have hne : b.line ≠ [] := by
        rw [← List.length_pos_iff, length_line]
        exact length_pos_of_erase hedit
      have hput := h.put_backspace ht hne (by rw [length_line]; omega)
      rw [line_erase]
      exact hput.mono fun i hi => hi.imp_right fun hone => hone.resolve_right id
  | finish =>
      rw [hedit, hopen] at hend
      cases hend
  | append room =>
      have hchar : 0x20 ≤ byte := by
        have hprintable := isPrintable_of_append hedit
        rw [isPrintable, Bool.and_eq_true] at hprintable
        exact of_decide_eq_true hprintable.1
      -- The byte that stays free keeps the line within the rows that can be scrolled.
      have hroom : b.length + 1 < b.bytes.size := room
      have hput := h.put_character ht hchar (by rw [length_line]; omega)
      rw [line_append]
      exact hput.mono fun i hi => hi.imp_right fun hone => hone.resolve_right id
  | ignore => exact h.mono fun i hi => hi.resolve_right id

end LineBuffer

namespace Console

variable {a : Adapter} {contents : σ → Nat → UInt16}

/-- An edit writes its echo, and then goes on or ends the line. -/
theorem edit_eq (c : Console) (b : LineBuffer) (byte : UInt8) :
    c.edit b byte = c.writeBytes (b.echo byte) >>= fun c =>
      pure (if LineBuffer.isEnd byte then .inr (c, b) else .inl (c, b.after byte)) := by
  have hend := b.isEnd_of_editFor byte
  unfold edit LineBuffer.echo LineBuffer.after
  cases hedit : b.editFor byte with
  | ignore =>
      rw [hedit] at hend
      rw [hend]
      rfl
  | _ =>
      rw [hedit] at hend
      rw [hend]
      simp only [writeBytes, bind_pure]
      rfl

/-- The echo of a byte is on the screen after the edit, whether it ended the line or not. -/
theorem edit_shows (hplain : PlainBuffer bus a contents) {t : Tape} {c : Console} {m : σ}
    (hs : Screen.Shows a contents t c.screen m) (ht : t.InWindow) (b : LineBuffer)
    (byte : UInt8) :
    (c.edit b byte).Returns bus.handler fuel m fun v m' => ∃ c',
      v = (if LineBuffer.isEnd byte then .inr (c', b) else .inl (c', b.after byte)) ∧
        Screen.Shows a contents (t.putAll (b.echo byte)) c'.screen m' := by
  rw [edit_eq]
  refine returns_bind (returns_mono (writeBytes_shows hplain (b.echo byte) hs ht)
    fun c' m' hs' => ?_)
  exact returns_pure ⟨c', rfl, hs'⟩

/-- A line is being edited, on a bus with given contents and reports to begin
    with: the prompt has been written, the bytes of `keys` have been read and have
    edited the line, and the next byte is about to be read. -/
inductive Editing (bus : Bus σ) (fuel : Nat) (c : Console) (prompt : Option String)
    (buffer : Array UInt8) (m : σ) (r : List Record) :
    List UInt8 → Console → LineBuffer → σ → List Record → Prop
  /-- The prompt has been written. -/
  | prompted {c₁ : Console} {m₁ : σ}
      (hprompt : (c.writePrompt prompt).run bus.handler fuel m = .ok (c₁, m₁)) :
      Editing bus fuel c prompt buffer m r [] c₁ (LineBuffer.ofBytes buffer) m₁ r
  /-- A byte has been read and has edited the line. -/
  | edited {keys : List UInt8} {c₁ c₂ c₃ : Console} {b₁ b₂ : LineBuffer} {m₁ m₂ m₃ : σ}
      {r₁ r₂ : List Record} {byte : UInt8}
      (before : Editing bus fuel c prompt buffer m r keys c₁ b₁ m₁ r₁)
      (hread : c₁.blockingRead.run bus.handler.keepingRecords fuel (m₁, r₁) =
        .ok ((byte, c₂), m₂, r₂))
      (hedit : (c₂.edit b₁ byte).run bus.handler fuel m₂ = .ok (.inl (c₃, b₂), m₃)) :
      Editing bus fuel c prompt buffer m r (keys ++ [byte]) c₃ b₂ m₃ r₂

/-- The tape of the screen after the prompt. -/
def promptTape (c : Console) (contents : Nat → UInt16) (prompt : Option String) : Tape :=
  (c.screen.tape contents).putAll (prompt.elim [] utf8)

theorem inWindow_promptTape {c : Console} (hcursor : c.screen.cursor.toNat < Screen.cells)
    (contents : Nat → UInt16) (prompt : Option String) :
    (c.promptTape contents prompt).InWindow :=
  Tape.inWindow_putAll (Screen.inWindow_tape hcursor contents) _

/-- The screen shows a line whose echo was written on a tape. -/
structure ShowsLine (t : Tape) (echo : List UInt8) (contents : Nat → UInt16) (c : Console)
    (b : LineBuffer) : Prop where
  /-- The cursor is where the echo has ended, in its place after scrolling. -/
  cursor_eq : (t.putAll echo).base + c.screen.cursor.toNat = (t.putAll echo).pos
  /-- The cursor is on the screen. -/
  cursor_lt : c.screen.cursor.toNat < Screen.cells
  /-- The line fits before the cursor. -/
  length_le : b.length ≤ c.screen.cursor.toNat
  /-- The cells right before the cursor hold the bytes of the line, in order and in
      the colours of the screen. -/
  line : (List.range' (c.screen.cursor.toNat - b.length) b.length).map contents =
    b.line.map c.screen.colors.cell
  /-- What else the echo has written is blank, in its place after scrolling. -/
  blank : ∀ i < Screen.cells, t.Written echo ((t.putAll echo).base + i) →
    (i < c.screen.cursor.toNat - b.length ∨ c.screen.cursor.toNat ≤ i) →
    contents i = c.screen.colors.blank
  /-- What it has not written is as it was, in its place after scrolling. -/
  kept : ∀ i < Screen.cells, ¬ t.Written echo ((t.putAll echo).base + i) →
    contents i = t.cells ((t.putAll echo).base + i)

/-- The bytes of `keys` have edited a line, and what they echoed on a tape is on the
    screen. -/
structure Edited (a : Adapter) (contents : σ → Nat → UInt16) (t : Tape) (buffer : Array UInt8)
    (keys : List UInt8) (c : Console) (b : LineBuffer) (m : σ) : Prop where
  /-- The bytes have edited the line. -/
  line : b = keys.foldl LineBuffer.after (LineBuffer.ofBytes buffer)
  /-- The screen shows the tape. -/
  shows : Screen.Shows a contents (t.putAll ((LineBuffer.ofBytes buffer).echoes keys)) c.screen m
  /-- The tape holds the line, and what else the echo has written is blank. -/
  holds : (t.putAll ((LineBuffer.ofBytes buffer).echoes keys)).HoldsLine t.pos b.line
    (t.Written ((LineBuffer.ofBytes buffer).echoes keys))

namespace Edited

variable {t : Tape} {buffer : Array UInt8} {keys : List UInt8} {c c' : Console} {b b' : LineBuffer}
  {m m' : σ} {byte : UInt8}

theorem read (h : Edited a contents t buffer keys c b m) (hplain : PlainBuffer bus a contents)
    {r r' : List Record} (hread : c.blockingRead.run bus.handler.keepingRecords fuel (m, r) =
      .ok ((byte, c'), m', r')) : Edited a contents t buffer keys c' b m' :=
  ⟨h.line, blockingRead_shows hplain h.shows _ _ hread, h.holds⟩

/-- A byte that does not end the line leaves it edited by one byte more. -/
theorem edit (h : Edited a contents t buffer keys c b m) (hplain : PlainBuffer bus a contents)
    (ht : t.InWindow) (hbuffer : buffer.size ≤ Screen.cells - Screen.columns + 1)
    (hedit : (c.edit b byte).run bus.handler fuel m = .ok (.inl (c', b'), m')) :
    Edited a contents t buffer (keys ++ [byte]) c' b' m' := by
  have hwindow := Tape.inWindow_putAll ht ((LineBuffer.ofBytes buffer).echoes keys)
  rcases (edit_shows hplain h.shows hwindow b byte).of_run hedit with ⟨d, hv, hshows⟩
  cases hend : LineBuffer.isEnd byte with
  | true =>
      -- a byte that ends the line does not go on editing it
      rw [hend] at hv
      cases hv
  | false =>
      rw [hend] at hv
      cases hv
      have hsize : b.bytes.size = buffer.size := by
        rw [h.line]
        exact LineBuffer.size_foldl_after _ keys
      have hholds := LineBuffer.holdsLine_after h.holds hwindow (hsize ▸ hbuffer) hend
      -- The echo of one byte more is what was echoed before and the echo of that byte.
      have hechoes : (LineBuffer.ofBytes buffer).echoes (keys ++ [byte]) =
          (LineBuffer.ofBytes buffer).echoes keys ++ b.echo byte := by
        rw [LineBuffer.echoes_append, ← h.line, LineBuffer.echoes, LineBuffer.echoes,
          List.append_nil]
      refine ⟨?_, ?_, ?_⟩
      · rw [List.foldl_append, ← h.line]
        rfl
      · rw [hechoes, Tape.putAll_append]
        exact hshows
      · rw [hechoes, Tape.putAll_append]
        exact hholds.mono fun i hi => (Tape.written_append _ _ _ i).1 hi

theorem showsLine (h : Edited a contents t buffer keys c b m) (ht : t.InWindow) :
    ShowsLine t ((LineBuffer.ofBytes buffer).echoes keys) (contents m) c b := by
  have hs := h.shows
  have hline := h.holds
  have hcursor := hs.pos
  have hpos := hline.pos_eq
  have hbase := hline.base_le
  have hlt := (Tape.inWindow_putAll ht ((LineBuffer.ofBytes buffer).echoes keys)).lt
  rw [b.length_line] at hpos
  refine ⟨hcursor.symm, by omega, by omega, ?_, fun i hi hwritten hout => ?_,
    fun i hi hunwritten => ?_⟩
  · rw [← hs.colors]
    refine List.ext_getElem ?_ fun k hk hk' => ?_
    · simp only [List.length_map, List.length_range', b.length_line]
    · -- the character at `k`, which is as far from the start on the screen as on the tape
      rw [List.length_map, List.length_range'] at hk
      have hin : c.screen.cursor.toNat - b.length + k < Screen.cells := by omega
      have hplace : (t.putAll ((LineBuffer.ofBytes buffer).echoes keys)).base +
          (c.screen.cursor.toNat - b.length + k) = t.pos + k := by omega
      rw [List.getElem_map, List.getElem_map, List.getElem_range', Nat.one_mul,
        hs.window _ hin, hplace]
      exact hline.character k _ (List.getElem?_eq_getElem (by rw [b.length_line]; exact hk))
  · rw [hs.window i hi, ← hs.colors]
    exact hline.blank _ hwritten (by omega)
  · rw [hs.window i hi]
    exact Tape.putAll_of_not_written hunwritten

end Edited

section Points

variable {c : Console} {prompt : Option String} {buffer : Array UInt8} {m : σ} {r : List Record}

/-- From the prompt on, every byte that is read leaves the line edited and its echo
    on the screen. -/
theorem Editing.isEdited (hplain : PlainBuffer bus c.screen.adapter contents)
    (hcursor : c.screen.cursor.toNat < Screen.cells)
    (hbuffer : buffer.size ≤ Screen.cells - Screen.columns + 1)
    {keys : List UInt8} {c₁ : Console} {b : LineBuffer} {m₁ : σ} {r₁ : List Record}
    (hpoint : Editing bus fuel c prompt buffer m r keys c₁ b m₁ r₁) :
    Edited c.screen.adapter contents (c.promptTape (contents m) prompt) buffer keys c₁ b m₁ := by
  have hwindow := inWindow_promptTape hcursor (contents m) prompt
  induction hpoint with
  -- The prompt alone was written, and the line is empty.
  | prompted hrun =>
      have hprompt : (c.writePrompt prompt).Returns bus.handler fuel m _ :=
        writePrompt_shows hplain (c.screen.shows_tape contents m)
          (Screen.inWindow_tape hcursor (contents m)) prompt
      exact ⟨rfl, hprompt.of_run hrun, .nil hwindow.le⟩
  | edited _ hread hedit ih => exact (ih.read hplain hread).edit hplain hwindow hbuffer hedit

/-- An edit that ends the line echoes a newline. -/
theorem edit_end {hw : Handler Hardware σ} (c : Console) (b : LineBuffer) (byte : UInt8) :
    (c.edit b byte).Ensures hw fuel m fun v m' => v.elim (fun _ => True) fun w =>
      LineBuffer.isEnd byte = true ∧ w.2 = b ∧ (c.output 0x0A).run hw fuel m = .ok (w.1, m') := by
  have hend := b.isEnd_of_editFor byte
  unfold edit
  cases hedit : b.editFor byte with
  | erase => exact ensures_bind fun _ _ _ => ensures_pure trivial
  | finish =>
      rw [hedit] at hend
      exact ensures_bind fun d m₁ houtput => ensures_pure ⟨hend, rfl, houtput⟩
  | append room => exact ensures_bind fun _ _ _ => ensures_pure trivial
  | ignore => exact ensures_pure trivial

/-- A line that was read was edited until a byte ended it, and then a newline was
    echoed. -/
theorem readLine_editing (bus : Bus σ) :
    (c.readLine prompt buffer).Ensures bus.handler.keepingRecords fuel (m, r) fun v s' =>
      ∃ keys c₁ m₁ r₁ byte c₂ m₂,
        Editing bus fuel c prompt buffer m r keys c₁ v.1 m₁ r₁ ∧
          c₁.blockingRead.run bus.handler.keepingRecords fuel (m₁, r₁) =
            .ok ((byte, c₂), m₂, s'.2) ∧
          LineBuffer.isEnd byte = true ∧
          (c₂.output 0x0A).run bus.handler fuel m₂ = .ok (v.2, s'.1) := by
  unfold readLine
  refine ensures_bind (ensures_unreported fun c₁ m₁ hprompt => ensures_bind ?_)
  -- Between two rounds the line is being edited.
  refine ensures_iterate (Q := fun v s' => Prog.Ensures _ _ _ s' _)
    (fun v s => ∃ keys, Editing bus fuel c prompt buffer m r keys v.1 v.2 s.1 s.2)
    ⟨[], .prompted hprompt⟩ fun ⟨c₁, b⟩ ⟨m₁, r₁⟩ ⟨keys, hpoint⟩ => ?_
  refine ensures_bind fun ⟨byte, c₂⟩ ⟨m₂, r₂⟩ hread => ensures_unreported fun v m₃ hedit => ?_
  cases v with
  -- One round more, and one key more.
  | inl w => exact ⟨keys ++ [byte], hpoint.edited hread hedit⟩
  -- The byte ended the line, and the buffer is as it was before.
  | inr w =>
      rcases edit_end c₂ b byte _ _ hedit with ⟨hend, hsame, houtput⟩
      rw [← hsame] at hpoint
      exact ensures_pure ⟨keys, c₁, m₁, r₁, byte, c₂, m₂, hpoint, hread, hend, houtput⟩

end Points

/-- Whatever is on the screen and wherever the cursor is, and whatever bytes come in,
    while a line is read into a buffer that is at most as long as 24 rows and one
    byte:
    the prompt is written, and the line is being edited from then on;
    whenever the next byte is about to be read, and also when it has been read and
    is not echoed yet, the screen shows the line, and the edit that follows ends;
    and a line that was read was edited so until a byte ended it. -/
theorem edited_line_shown {c : Console} {contents : σ → Nat → UInt16}
    (hplain : PlainBuffer bus c.screen.adapter contents)
    (hcursor : c.screen.cursor.toNat < Screen.cells) (prompt : Option String)
    {buffer : Array UInt8} (hbuffer : buffer.size ≤ Screen.cells - Screen.columns + 1)
    (fuel : Nat) (m : σ) (r : List Record) :
    (∃ c₁ m₁, Editing bus fuel c prompt buffer m r [] c₁ (LineBuffer.ofBytes buffer) m₁ r) ∧
      (∀ keys c₁ b m₁ r₁, Editing bus fuel c prompt buffer m r keys c₁ b m₁ r₁ →
        b = keys.foldl LineBuffer.after (LineBuffer.ofBytes buffer) ∧
        ShowsLine (c.promptTape (contents m) prompt) ((LineBuffer.ofBytes buffer).echoes keys)
          (contents m₁) c₁ b ∧
        ∀ byte c₂ m₂ r₂,
          c₁.blockingRead.run bus.handler.keepingRecords fuel (m₁, r₁) =
            .ok ((byte, c₂), m₂, r₂) →
          ShowsLine (c.promptTape (contents m) prompt) ((LineBuffer.ofBytes buffer).echoes keys)
            (contents m₂) c₂ b ∧
          ∃ v m₃, (c₂.edit b byte).run bus.handler fuel m₂ = .ok (v, m₃)) ∧
      ∀ b c' m' r',
        (c.readLine prompt buffer).run bus.handler.keepingRecords fuel (m, r) =
          .ok ((b, c'), m', r') →
        ∃ keys c₁ m₁ r₁ byte c₂ m₂,
          Editing bus fuel c prompt buffer m r keys c₁ b m₁ r₁ ∧
          c₁.blockingRead.run bus.handler.keepingRecords fuel (m₁, r₁) =
            .ok ((byte, c₂), m₂, r') ∧
          LineBuffer.isEnd byte = true ∧
          (c₂.output 0x0A).run bus.handler fuel m₂ = .ok (c', m') := by
  have hwindow := inWindow_promptTape hcursor (contents m) prompt
  refine ⟨?_, fun keys c₁ b m₁ r₁ hpoint => ?_, fun b c' m' r' hrun => ?_⟩
  · obtain ⟨c₁, m₁, hrun, _⟩ : (c.writePrompt prompt).Returns bus.handler fuel m _ :=
      writePrompt_shows hplain (c.screen.shows_tape contents m)
        (Screen.inWindow_tape hcursor (contents m)) prompt
    exact ⟨c₁, m₁, .prompted hrun⟩
  · have hedited := hpoint.isEdited hplain hcursor hbuffer
    refine ⟨hedited.line, hedited.showsLine hwindow, fun byte c₂ m₂ r₂ hread => ?_⟩
    have hread₂ := hedited.read hplain hread
    have hwindow₂ := Tape.inWindow_putAll hwindow ((LineBuffer.ofBytes buffer).echoes keys)
    obtain ⟨v, m₃, hedit, _⟩ : (c₂.edit b byte).Returns bus.handler fuel m₂ _ :=
      edit_shows hplain hread₂.shows hwindow₂ b byte
    exact ⟨hread₂.showsLine hwindow, v, m₃, hedit⟩
  · exact readLine_editing bus _ _ hrun

/-- A console at the last cell of the screen, with a letter waiting to be read. -/
def atLastCell : Console where
  uart := { base := 0x3F8, divisor := 12, spinLimit := 1, present := false }
  printer := { base := 0x378, spinLimit := 1 }
  screen := { cursor := 1999 }
  keyboard := { statusPort := 0x64, dataPort := 0x60, decoder := {} }
  queue := Ring.empty.push 0x41

/-- A letter that is typed in the last cell is shown one row up, right before the
    cursor. -/
theorem edited_line_shown_last_cell :
    ∃ c₁ b m₁ r₁, Editing Screen.memoryBus 2 atLastCell none (Array.replicate 4 0) Memory.empty []
        [0x41] c₁ b m₁ r₁ ∧
      b.line = [0x41] ∧ c₁.screen.cursor.toNat = 1920 ∧
      m₁.read (Adapter.color.cellAddress 1919) = c₁.screen.colors.cell 0x41 := by
  have hroom : (Array.replicate 4 (0 : UInt8)).size ≤ Screen.cells - Screen.columns + 1 := by
    decide
  have hpoints := (edited_line_shown (c := atLastCell) (Screen.plainBuffer_memoryBus _)
    (by decide) none hroom 2 Memory.empty []).2.1
  have hstart : Editing Screen.memoryBus 2 atLastCell none (Array.replicate 4 0) Memory.empty [] []
      atLastCell (LineBuffer.ofBytes (Array.replicate 4 0)) Memory.empty [] := .prompted rfl
  have hbyte : (atLastCell.blockingRead.run Screen.memoryBus.handler.keepingRecords 2
      (Memory.empty, [])).toOption.map (fun v => v.1.1) = some 0x41 := by decide +kernel
  rcases Option.map_eq_some_iff.1 hbyte with ⟨⟨⟨byte, c₂⟩, m₂, r₂⟩, hread, rfl⟩
  have hread := eq_ok_of_toOption hread
  rcases (hpoints _ _ _ _ _ hstart).2.2 _ _ _ _ hread with ⟨_, v, m₃, hedit⟩
  cases v with
  | inr w => exact absurd (edit_end _ _ _ _ _ hedit).1 (by decide)
  | inl w =>
      have hpoint := hstart.edited hread hedit
      rcases hpoints _ _ _ _ _ hpoint with ⟨hline, hshows, _⟩
      have hchars : w.2.line = [0x41] := by
        rw [hline]
        decide
      have hlength : w.2.length = 1 := by
        rw [← w.2.length_line, hchars]
        rfl
      have hcursor : w.1.screen.cursor.toNat = 1920 :=
        Nat.add_left_cancel (hshows.cursor_eq.trans (by decide : _ = 80 + 1920))
      have hcells := hshows.line
      rw [hcursor, hlength, hchars] at hcells
      exact ⟨w.1, w.2, m₃, r₂, hpoint, hchars, hcursor, List.head_eq_of_cons_eq hcells⟩

end Console

end KernelConsole
