import KernelConsole.Proofs.Screen.Tape

/-!
# A Line on the Tape

A line that is typed and taken back on a tape: a character goes to its end, and a
backspace takes its last one away. The line stays where it started, as the tape
does not move. Only the window does, and it can follow the end of a line for 24
rows before it leaves the start behind.

What has been written and is not in the line is blank. To say so, a tape has to
say which cells a byte writes: those it draws, and the row that it brings into
the window. Everything else is as it was before.

## Main definitions

* `Tape.putAll`: Writing bytes in order.
* `Tape.Draws`, `Tape.BringsIn`, `Tape.Writes`: The cells that a byte writes.
* `Tape.Written`: The cells that bytes write.
* `Tape.HoldsLine`: A line ends at the position, and the rest of what has been
  written is blank.
* `Screen.tape`: The tape that a screen starts.

## Theorems

* `Tape.put_of_not_writes`, `Tape.putAll_of_not_written`: What is not written
  stays.
* `Tape.HoldsLine.put_character`, `Tape.HoldsLine.put_backspace`: A byte at the
  end of a line.
-/

namespace KernelConsole

namespace Tape

/-- Writes bytes in order. -/
def putAll (t : Tape) (bytes : List UInt8) : Tape := bytes.foldl put t

/-- A byte draws a cell, before anything scrolls: backspace the one before the
    position, a tab those up to the next tab stop, and a character the one at the
    position. -/
def Draws (t : Tape) (c : UInt8) (i : Nat) : Prop :=
  if c = 0x08 then t.base < t.pos ∧ i + 1 = t.pos
  else if c = 0x0A then False
  else if c = 0x0D then False
  else if c = 0x09 then t.pos ≤ i ∧ i < (t.pos / Screen.tabWidth + 1) * Screen.tabWidth
  else i = t.pos

/-- Scrolling brings a cell into the window, with the row that comes in blank. -/
def BringsIn (t : Tape) (i : Nat) : Prop :=
  t.base + Screen.cells ≤ t.pos ∧
    t.base + Screen.cells ≤ i ∧ i < t.base + Screen.cells + Screen.columns

/-- A byte writes a cell: it draws it, or brings it in when it scrolls. -/
def Writes (t : Tape) (c : UInt8) (i : Nat) : Prop :=
  t.Draws c i ∨ (t.interpretByte c).BringsIn i

/-- Some byte of a sequence writes a cell. -/
def Written (t : Tape) : List UInt8 → Nat → Prop
  | [], _ => False
  | c :: rest, i => t.Writes c i ∨ (t.put c).Written rest i

theorem putAll_append (t : Tape) (xs ys : List UInt8) :
    t.putAll (xs ++ ys) = (t.putAll xs).putAll ys :=
  List.foldl_append

/-- Bytes in two goes write what the first write, and what the second write from there. -/
theorem written_append (t : Tape) (xs ys : List UInt8) (i : Nat) :
    t.Written (xs ++ ys) i ↔ t.Written xs i ∨ (t.putAll xs).Written ys i := by
  induction xs generalizing t with
  | nil => exact (or_iff_right id).symm
  | cons x rest ih =>
      simp only [List.cons_append, Written, ih, or_assoc]
      rfl

/-- Before anything scrolls, a byte leaves every cell that it does not draw. -/
theorem interpretByte_of_not_draws {t : Tape} {c : UInt8} {i : Nat} (h : ¬ t.Draws c i) :
    (t.interpretByte c).cells i = t.cells i := by
  unfold Draws at h
  unfold interpretByte
  -- As the byte is interpreted, so is what it draws: case by case the same question.
  by_cases hback : c = 0x08
  · rw [if_pos hback] at h ⊢
    unfold backspace
    by_cases hfirst : t.base < t.pos
    · rw [if_pos hfirst]
      simp only [blank]
      rw [if_neg (by omega)]
    · rw [if_neg hfirst]
  rw [if_neg hback] at h ⊢
  by_cases hline : c = 0x0A
  · rw [if_pos hline]
    rfl
  rw [if_neg hline] at h ⊢
  by_cases hreturn : c = 0x0D
  · rw [if_pos hreturn]
    rfl
  rw [if_neg hreturn] at h ⊢
  by_cases htab : c = 0x09
  · rw [if_pos htab] at h ⊢
    simp only [tab, fillTo, blank]
    rw [if_neg h]
  rw [if_neg htab] at h ⊢
  simp only [store]
  rw [if_neg h]

/-- Scrolling leaves every cell that it does not bring in. -/
theorem scroll_of_not_bringsIn {t : Tape} {i : Nat} (h : ¬ t.BringsIn i) :
    t.scroll.cells i = t.cells i := by
  by_cases hleft : t.base + Screen.cells ≤ t.pos
  · rw [scroll_of_le hleft]
    simp only [blank]
    rw [if_neg fun hrow => h ⟨hleft, hrow⟩]
  · rw [scroll_of_lt (by omega)]

theorem scroll_of_bringsIn {t : Tape} {i : Nat} (h : t.BringsIn i) :
    t.scroll.cells i = t.colors.blank := by
  rw [scroll_of_le h.1]
  simp only [blank]
  rw [if_pos h.2]

/-- A byte leaves every cell that it does not write. -/
theorem put_of_not_writes {t : Tape} {c : UInt8} {i : Nat} (h : ¬ t.Writes c i) :
    (t.put c).cells i = t.cells i := by
  -- Scrolling touches only what it brings in, and what comes before it what it draws.
  have hscrolled : (t.put c).cells i = (t.interpretByte c).cells i :=
    scroll_of_not_bringsIn fun hrow => h (.inr hrow)
  rw [hscrolled]
  exact interpretByte_of_not_draws fun hdraws => h (.inl hdraws)

/-- Bytes leave every cell that none of them writes. -/
theorem putAll_of_not_written {t : Tape} {bytes : List UInt8} {i : Nat}
    (h : ¬ t.Written bytes i) : (t.putAll bytes).cells i = t.cells i := by
  induction bytes generalizing t with
  | nil => rfl
  | cons c rest ih =>
      have hrest : ((t.put c).putAll rest).cells i = (t.put c).cells i :=
        ih fun hwritten => h (.inr hwritten)
      exact hrest.trans (put_of_not_writes fun hwrites => h (.inl hwrites))

/-- Bytes keep the position in the window, as any uses of a screen do. -/
theorem inWindow_putAll {t : Tape} (ht : t.InWindow) (bytes : List UInt8) :
    (t.putAll bytes).InWindow := by
  have hops := inWindow_performAll ht (bytes.map .put)
  rw [performAll, List.foldl_map] at hops
  exact hops

theorem scroll_colors (t : Tape) : t.scroll.colors = t.colors := by
  by_cases hleft : t.base + Screen.cells ≤ t.pos
  · rw [scroll_of_le hleft]
  · rw [scroll_of_lt (by omega)]

theorem scroll_pos (t : Tape) : t.scroll.pos = t.pos := by
  by_cases hleft : t.base + Screen.cells ≤ t.pos
  · rw [scroll_of_le hleft]
  · rw [scroll_of_lt (by omega)]

theorem ne_of_character {c d : UInt8} (hc : 0x20 ≤ c) (hd : d < 0x20) : c ≠ d :=
  fun heq => absurd hc (UInt8.not_le.2 (heq ▸ hd))

theorem interpretByte_character {c : UInt8} (hc : 0x20 ≤ c) (t : Tape) :
    t.interpretByte c = t.store c := by
  unfold interpretByte
  rw [if_neg (ne_of_character hc (by decide)), if_neg (ne_of_character hc (by decide)),
    if_neg (ne_of_character hc (by decide)), if_neg (ne_of_character hc (by decide))]

theorem draws_character {c : UInt8} (hc : 0x20 ≤ c) {t : Tape} {i : Nat} (h : t.Draws c i) :
    i = t.pos := by
  unfold Draws at h
  rwa [if_neg (ne_of_character hc (by decide)), if_neg (ne_of_character hc (by decide)),
    if_neg (ne_of_character hc (by decide)), if_neg (ne_of_character hc (by decide))] at h

/-- A line is on the tape from `start` to the position, and what else has been
    written is blank. The window has not left the start of the line. -/
structure HoldsLine (t : Tape) (start : Nat) (text : List UInt8) (written : Nat → Prop) :
    Prop where
  /-- The window has not left the start of the line. -/
  base_le : t.base ≤ start
  /-- The line ends at the position. -/
  pos_eq : t.pos = start + text.length
  /-- The cells of the line hold its characters in order. -/
  character : ∀ k c, text[k]? = some c → t.cells (start + k) = t.colors.cell c
  /-- What else has been written is blank. -/
  blank : ∀ i, written i → (i < start ∨ t.pos ≤ i) → t.cells i = t.colors.blank

namespace HoldsLine

variable {t : Tape} {start : Nat} {text : List UInt8} {written : Nat → Prop}

/-- A position holds the line that is still empty. -/
theorem nil (ht : t.base ≤ t.pos) : t.HoldsLine t.pos [] fun _ => False where
  base_le := ht
  pos_eq := rfl
  character _ _ h := nomatch h
  blank _ h := h.elim

/-- More cells may be called written if they are in the line or blank. -/
theorem mono (h : t.HoldsLine start text written) {written' : Nat → Prop}
    (hwritten : ∀ i, written' i → written i) : t.HoldsLine start text written' :=
  ⟨h.base_le, h.pos_eq, h.character, fun i hi => h.blank i (hwritten i hi)⟩

/-- A character that is written at the end of the line makes it longer. -/
theorem store (h : t.HoldsLine start text written) (c : UInt8) :
    (t.store c).HoldsLine start (text ++ [c]) fun i => written i ∨ i = t.pos := by
  have hpos := h.pos_eq
  refine ⟨h.base_le, ?_, fun k d hd => ?_, fun i hi hout => ?_⟩
  · simp only [Tape.store, List.length_append, List.length_singleton]
    omega
  · simp only [Tape.store]
    by_cases hlast : k < text.length
    · -- a character of the old line
      rw [List.getElem?_append_left hlast] at hd
      rw [if_neg (by omega)]
      exact h.character k d hd
    · -- the new one
      have hk : k < (text ++ [c]).length := (List.getElem?_eq_some_iff.1 hd).1
      rw [List.length_append, List.length_singleton] at hk
      have heq : k = text.length := by omega
      rw [heq, List.getElem?_concat_length] at hd
      cases hd
      rw [if_pos (by omega)]
  · -- The cell that is written belongs to the line now, and no other has changed.
    simp only [Tape.store] at hout ⊢
    rw [if_neg (by omega)]
    rcases hi with hold | hnew
    · exact h.blank i hold (by omega)
    · omega

/-- A line that is not empty has its last character in the window, so backspace
    takes it away. -/
theorem backspace (h : t.HoldsLine start text written) (hne : text ≠ []) :
    t.backspace.HoldsLine start text.dropLast fun i => written i ∨ t.Draws 0x08 i := by
  have hpos := h.pos_eq
  have hbase := h.base_le
  have hlength : 0 < text.length := List.length_pos_iff.2 hne
  have hfirst : t.base < t.pos := by omega
  unfold Tape.backspace
  rw [if_pos hfirst]
  refine ⟨hbase, ?_, fun k c hc => ?_, fun i hi hout => ?_⟩
  · simp only [List.length_dropLast]
    omega
  -- The characters that stay are in front of the cell that is erased.
  · have hk : k < text.dropLast.length := (List.getElem?_eq_some_iff.1 hc).1
    rw [List.length_dropLast] at hk
    rw [List.getElem?_dropLast, if_pos (by omega)] at hc
    simp only [Tape.blank]
    rw [if_neg (by omega)]
    exact h.character k c hc
  · simp only at hout
    simp only [Tape.blank]
    by_cases herased : t.pos - 1 ≤ i ∧ i < t.pos
    · rw [if_pos herased]
    · rw [if_neg herased]
      rcases hi with hold | hdrawn
      · exact h.blank i hold (by omega)
      · -- the cell before the position is the one that was erased
        unfold Draws at hdrawn
        rw [if_pos rfl] at hdrawn
        omega

/-- A line of at most 24 rows stays in the window when that follows its end. -/
theorem scroll (h : t.HoldsLine start text written) (hend : t.pos ≤ t.base + Screen.cells)
    (hfits : text.length ≤ Screen.cells - Screen.columns) :
    t.scroll.HoldsLine start text fun i => written i ∨ t.BringsIn i := by
  have hpos := h.pos_eq
  have hbase := h.base_le
  have hcolors := t.scroll_colors
  refine ⟨?_, t.scroll_pos.trans hpos, fun k c hc => ?_, fun i hi hout => ?_⟩
  · by_cases hleft : t.base + Screen.cells ≤ t.pos
    · -- The line ends right behind the window, so it starts below its first row.
      rw [scroll_of_le hleft]
      simp only [Screen.cells, Screen.rows, Screen.columns] at *
      omega
    · rw [scroll_of_lt (by omega)]
      exact hbase
  · -- The row that comes in is behind the end of the line.
    have hk : k < text.length := (List.getElem?_eq_some_iff.1 hc).1
    have hkept : t.scroll.cells (start + k) = t.cells (start + k) := by
      refine scroll_of_not_bringsIn fun hrow => ?_
      have hbelow := hrow.2.1
      omega
    rw [hkept, hcolors]
    exact h.character k c hc
  · rw [t.scroll_pos] at hout
    rw [hcolors]
    by_cases hrow : t.BringsIn i
    · exact scroll_of_bringsIn hrow
    · rw [scroll_of_not_bringsIn hrow]
      exact h.blank i (hi.resolve_right hrow) hout

/-- Putting a character at the end of a line makes it longer, if that leaves it at
    most 24 rows long. -/
theorem put_character (h : t.HoldsLine start text written) (ht : t.InWindow) {c : UInt8}
    (hc : 0x20 ≤ c) (hfits : text.length + 1 ≤ Screen.cells - Screen.columns) :
    (t.put c).HoldsLine start (text ++ [c]) fun i => written i ∨ t.Writes c i := by
  have hlt := ht.lt
  have hstore := interpretByte_character hc t
  have hscrolled := (h.store c).scroll (by simp only [Tape.store]; omega)
    (by simp only [List.length_append, List.length_singleton]; omega)
  unfold put
  rw [hstore]
  -- What the character writes is its own cell and the row that comes in.
  refine hscrolled.mono fun i hi => ?_
  rcases hi with hold | hdrawn | hrow
  · exact .inl (.inl hold)
  · exact .inl (.inr (draws_character hc hdrawn))
  · rw [hstore] at hrow
    exact .inr hrow

/-- Putting a backspace at the end of a line that is not empty takes away its last
    character. -/
theorem put_backspace (h : t.HoldsLine start text written) (ht : t.InWindow) (hne : text ≠ [])
    (hfits : text.length ≤ Screen.cells - Screen.columns + 1) :
    (t.put 0x08).HoldsLine start text.dropLast fun i => written i ∨ t.Writes 0x08 i := by
  have herased := h.backspace hne
  -- Going back never leaves the window, so nothing scrolls.
  have hend : t.backspace.pos ≤ t.backspace.base + Screen.cells := by
    rcases interpretByte_window ht 0x08 with ⟨hbase, _, hle, _⟩
    exact hbase ▸ hle
  have hscrolled := herased.scroll hend (by rw [List.length_dropLast]; omega)
  exact hscrolled.mono fun i hi => or_assoc.2 hi

end HoldsLine

end Tape

/-- The tape that a screen starts: its window is what is on the screen. -/
def Screen.tape (s : Screen) (contents : Nat → UInt16) : Tape where
  cells := contents
  base := 0
  pos := s.cursor.toNat
  colors := s.colors

/-- A cursor on the screen is a position in the window. -/
theorem Screen.inWindow_tape {s : Screen} (h : s.cursor.toNat < Screen.cells)
    (contents : Nat → UInt16) : (s.tape contents).InWindow where
  aligned := Nat.dvd_zero _
  le := Nat.zero_le _
  lt := by
    simp only [tape]
    omega

end KernelConsole
