import KernelConsole.Proofs.Screen.Refinement

/-!
# Where a Byte Takes the Cursor

The cursor of a screen after a byte is worked out from the cursor before it and the byte
alone. The cells have no part in it: whatever the adapter answers when its rows are
copied, writing a byte ends, and ends with the same cursor.

On its way the cursor may leave the last row, but nothing is written there before the
screen has scrolled. So nothing but the cells of the adapter is accessed, and no step of
the cursor leaves its sixteen bits.

Nothing is assumed of the hardware here, not even that there is memory.

## Main definitions

* `Screen.moved`, `Screen.scrolled`: What a byte and scrolling do to a cursor.
* `Screen.after`, `Screen.afterAll`: The screen after a byte, and after several.
* `Adapter.InBuffer`: The accesses to the cells of an adapter.

## Theorems

* `Screen.after_lt`: The cursor stays on the screen.
* `Screen.scrollIfNeeded_moves`, `Screen.writeSpaces_moves`, `Screen.interpretByte_moves`:
  The steps of writing a byte.
* `Screen.drawn_after`: A byte that is drawn and scrolled, on any hardware.
* `Screen.blankAll_draws`: Blanking the screen.
-/

namespace KernelConsole

open Prog

/-- The access is one to a cell of an adapter. -/
def Adapter.InBuffer (a : Adapter) : Access → Prop
  | .readCell address => ∃ pos < Screen.cells, address = a.cellAddress pos
  | .writeCell address _ => ∃ pos < Screen.cells, address = a.cellAddress pos
  | .readReg _ => False
  | .writeReg _ _ => False

namespace Screen

/-- Where a byte moves a cursor, before scrolling. -/
def moved (pos : Nat) (c : UInt8) : Nat :=
  if c = 0x08 then pos - 1
  else if c = 0x0A then (pos / columns + 1) * columns
  else if c = 0x0D then pos / columns * columns
  else if c = 0x09 then (pos / tabWidth + 1) * tabWidth
  else pos + 1

/-- Where scrolling leaves a cursor: one row up, if it has left the screen. -/
def scrolled (pos : Nat) : Nat :=
  if pos < cells then pos else pos - columns

/-- The same screen with the cursor elsewhere. -/
def moveTo (s : Screen) (pos : Nat) : Screen :=
  { s with cursor := pos.toUInt16 }

/-- The screen after a byte. -/
def after (s : Screen) (c : UInt8) : Screen :=
  s.moveTo (scrolled (moved s.cursor.toNat c))

/-- The screen after bytes in order. -/
def afterAll (s : Screen) (bytes : List UInt8) : Screen :=
  bytes.foldl after s

theorem scrolled_of_lt {pos : Nat} (h : pos < cells) : scrolled pos = pos :=
  if_pos h

/-- A byte takes the cursor at most one row below the screen. -/
theorem moved_lt {pos : Nat} (h : pos < cells) (c : UInt8) : moved pos c < cells + columns := by
  have hrow : (pos / columns + 1) * columns ≤ cells := by
    simp only [cells, rows, columns] at *
    omega
  have hstop : (pos / tabWidth + 1) * tabWidth ≤ cells := by
    simp only [cells, rows, columns, tabWidth] at *
    omega
  have hstart : pos / columns * columns ≤ pos := Nat.div_mul_le_self _ _
  -- Each byte goes to the row after that of the cursor at most, and that is where the bound
  -- comes from.
  unfold moved
  simp only [cells, rows, columns] at *
  split
  · omega
  · split
    · omega
    · split
      · omega
      · split <;> omega

theorem scrolled_moved_lt {pos : Nat} (h : pos < cells) (c : UInt8) :
    scrolled (moved pos c) < cells := by
  have hmoved := moved_lt h c
  unfold scrolled
  by_cases hin : moved pos c < cells
  · rw [if_pos hin]
    exact hin
  · rw [if_neg hin]
    simp only [cells, rows, columns] at *
    omega

theorem moveTo_cursor (s : Screen) {pos : Nat} (h : pos < UInt16.size) :
    (s.moveTo pos).cursor.toNat = pos :=
  UInt16.toNat_ofNat_of_lt' h

theorem moveTo_self (s : Screen) : s.moveTo s.cursor.toNat = s := by
  unfold moveTo
  rw [Nat.toUInt16_eq, UInt16.ofNat_toNat]

/-- The cursor is on the screen after every byte if it was before. -/
theorem after_lt {s : Screen} (h : s.cursor.toNat < cells) (c : UInt8) :
    (s.after c).cursor.toNat < cells := by
  have hlt := scrolled_moved_lt h c
  unfold after
  rw [moveTo_cursor s (by simp only [cells, rows, columns, UInt16.size] at *; omega)]
  exact hlt

/-- Moving forward, in the terms of `moveTo`. -/
theorem advance_moves {s : Screen} {n : Nat} (h : s.cursor.toNat + n < UInt16.size) :
    s.advance n = pure (s.moveTo (s.cursor.toNat + n)) := by
  rcases advance_eq h with ⟨cursor, hto, hadvance⟩
  rw [hadvance, ← hto]
  unfold moveTo
  rw [Nat.toUInt16_eq, UInt16.ofNat_toNat]

/-- Moving back, in the same terms. -/
theorem retreat_moves {s : Screen} {n : Nat} (h : n ≤ s.cursor.toNat) :
    s.retreat n = pure (s.moveTo (s.cursor.toNat - n)) := by
  rcases retreat_eq h with ⟨cursor, hto, hretreat⟩
  rw [hretreat, ← hto]
  unfold moveTo
  rw [Nat.toUInt16_eq, UInt16.ofNat_toNat]

theorem writeAt_draws (s : Screen) {pos : Nat} (h : pos < cells) (c : UInt8) :
    (s.writeAt pos c).Finishes s.adapter.InBuffer fun _ => True :=
  finishes_one (I := Hardware) (r := .writeCell _ _) ⟨pos, h, rfl⟩ fun _ => trivial

theorem pullUp_draws (s : Screen) {pos : Nat} (h : pos + columns < cells) :
    (s.pullUp pos).Finishes s.adapter.InBuffer fun _ => True :=
  finishes_bind (finishes_one (I := Hardware) (r := .readCell _) ⟨pos + columns, h, rfl⟩ fun _ =>
    finishes_one (I := Hardware) (r := .writeCell _ _) ⟨pos, by omega, rfl⟩ fun _ => trivial)

/-- Blanking the cells of the screen accesses no others. -/
theorem blankAll_draws (s : Screen) :
    ((List.range cells).forM fun pos => s.writeAt pos 0x20).Finishes s.adapter.InBuffer
      fun _ => True :=
  finishes_forM fun _ hpos => s.writeAt_draws (List.mem_range.1 hpos) 0x20

/-- Whatever the cells hold, scrolling ends with the cursor a row up. -/
theorem scrollIfNeeded_moves (s : Screen) :
    s.scrollIfNeeded.Finishes s.adapter.InBuffer fun s' =>
      s' = s.moveTo (scrolled s.cursor.toNat) := by
  unfold scrollIfNeeded scrolled
  by_cases hin : s.cursor.toNat < cells
  · rw [if_pos hin, if_pos hin]
    exact finishes_pure s.moveTo_self.symm
  · rw [if_neg hin, if_neg hin]
    -- The rows that are pulled up have one below them, and the row that is blanked is the
    -- last.
    have hpull : ∀ pos ∈ List.range (cells - columns), pos + columns < cells := fun pos hpos => by
      have hlt := List.mem_range.1 hpos
      omega
    have hblank : ∀ pos ∈ List.range' (cells - columns) columns, pos < cells := fun pos hpos => by
      have hlt := (List.mem_range'_1.1 hpos).2
      simp only [cells, rows, columns] at *
      omega
    refine finishes_bind (finishes_mono (finishes_forM fun pos hpos =>
      s.pullUp_draws (hpull pos hpos)) fun _ _ => ?_)
    refine finishes_bind (finishes_mono (finishes_forM fun pos hpos =>
      s.writeAt_draws (hblank pos hpos) 0x20) fun _ _ => ?_)
    rw [retreat_moves (by simp only [cells, rows, columns] at *; omega)]
    exact finishes_pure rfl

theorem write_moves {s : Screen} (h : s.cursor.toNat < cells) (c : UInt8) :
    (s.write c).Finishes s.adapter.InBuffer fun s' => s' = s.moveTo (s.cursor.toNat + 1) := by
  refine finishes_bind (finishes_mono (s.writeAt_draws h c) fun _ _ => ?_)
  rw [advance_moves (by simp only [cells, rows, columns, UInt16.size] at *; omega)]
  exact finishes_pure rfl

/-- Only the last of some spaces can leave the screen, if they do not pass its end. -/
theorem writeSpaces_moves (n : Nat) {s : Screen} (h : s.cursor.toNat < cells)
    (hn : s.cursor.toNat + n ≤ cells) :
    (writeSpaces n s).Finishes s.adapter.InBuffer fun s' =>
      s' = s.moveTo (scrolled (s.cursor.toNat + n)) := by
  induction n generalizing s with
  | zero =>
      rw [Nat.add_zero, scrolled_of_lt h]
      exact finishes_pure s.moveTo_self.symm
  | succ n ih =>
      have hnext : (s.moveTo (s.cursor.toNat + 1)).cursor.toNat = s.cursor.toNat + 1 :=
        moveTo_cursor s (by simp only [cells, rows, columns, UInt16.size] at *; omega)
      refine finishes_bind (finishes_mono (write_moves h 0x20) ?_)
      rintro _ rfl
      refine finishes_bind (finishes_mono (scrollIfNeeded_moves (s.moveTo _)) ?_)
      rw [hnext]
      rintro s₂ hs₂
      by_cases hlast : n = 0
      · -- the last space, which may have scrolled
        rw [hlast]
        exact finishes_pure hs₂
      · -- not the last: the cursor is still on the screen
        rw [scrolled_of_lt (by omega)] at hs₂
        have hs₂' : s₂ = s.moveTo (s.cursor.toNat + 1) := hs₂
        subst hs₂'
        refine finishes_mono (ih (s := s.moveTo _) (by omega) (by omega)) fun s' hs' => ?_
        rw [hs', hnext, show s.cursor.toNat + 1 + n = s.cursor.toNat + (n + 1) by omega]
        rfl

/-- A backspace takes the cursor one cell back, or leaves it at the first. -/
theorem backspace_moves {s : Screen} (h : s.cursor.toNat < cells) :
    s.backspace.Finishes s.adapter.InBuffer fun s' => s' = s.moveTo (s.cursor.toNat - 1) := by
  unfold backspace
  by_cases hfirst : s.cursor = 0
  · -- the first cell: nothing moves
    have hstay : s.moveTo (s.cursor.toNat - 1) = s := by
      have hzero : s.cursor.toNat - 1 = s.cursor.toNat := by
        rw [hfirst]
        rfl
      rw [hzero, moveTo_self]
    rw [if_pos hfirst]
    exact finishes_pure hstay.symm
  · have hne : s.cursor.toNat ≠ 0 := fun h => hfirst (UInt16.toNat_inj.1 h)
    have hback : (s.moveTo (s.cursor.toNat - 1)).cursor.toNat < cells := by
      rw [moveTo_cursor s (by simp only [cells, rows, columns, UInt16.size] at *; omega)]
      omega
    rw [if_neg hfirst, retreat_moves (by omega), pure_bind]
    exact finishes_bind (finishes_mono (writeAt_draws _ hback 0x20) fun _ _ => finishes_pure rfl)

/-- A new line takes the cursor to the start of the next row. -/
theorem newline_moves {s : Screen} (h : s.cursor.toNat < cells) :
    s.newline.Finishes s.adapter.InBuffer fun s' =>
      s' = s.moveTo ((s.cursor.toNat / columns + 1) * columns) := by
  have hbelow : (s.moveTo (s.cursor.toNat + columns)).cursor.toNat = s.cursor.toNat + columns :=
    moveTo_cursor s (by simp only [cells, rows, columns, UInt16.size] at *; omega)
  have hstart : (s.moveTo (s.cursor.toNat + columns)).column ≤
      (s.moveTo (s.cursor.toNat + columns)).cursor.toNat := Nat.mod_le _ _
  unfold newline
  rw [advance_moves (by simp only [cells, rows, columns, UInt16.size] at *; omega), pure_bind,
    retreat_moves hstart]
  -- A row down and back to its start, in numbers.
  refine finishes_pure (congrArg s.moveTo ?_)
  rw [column, hbelow]
  simp only [columns]
  omega

/-- A carriage return takes it to the start of its own. -/
theorem carriageReturn_moves (s : Screen) :
    s.carriageReturn.Finishes s.adapter.InBuffer fun s' =>
      s' = s.moveTo (s.cursor.toNat / columns * columns) := by
  have hstart : s.column ≤ s.cursor.toNat := Nat.mod_le _ _
  unfold carriageReturn
  rw [retreat_moves hstart]
  refine finishes_pure (congrArg s.moveTo ?_)
  simp only [column, columns]
  omega

/-- A tab has scrolled already if it had to. -/
theorem tab_moves {s : Screen} (h : s.cursor.toNat < cells) :
    s.tab.Finishes s.adapter.InBuffer fun s' =>
      s' = s.moveTo (scrolled ((s.cursor.toNat / tabWidth + 1) * tabWidth)) := by
  -- A tab stop of the row is one of the screen, as the width of a row is a multiple.
  have hstop : (s.cursor.toNat / tabWidth + 1) * tabWidth =
      s.cursor.toNat + (tabWidth - s.column % tabWidth) := by
    simp only [column, columns, tabWidth]
    omega
  have hend : (s.cursor.toNat / tabWidth + 1) * tabWidth ≤ cells := by
    simp only [cells, rows, columns, tabWidth] at *
    omega
  unfold tab
  rw [hstop]
  exact writeSpaces_moves _ h (hstop ▸ hend)

/-- The steps before scrolling take the cursor where the byte moves it, up to
    scrolling. -/
theorem interpretByte_moves {s : Screen} (h : s.cursor.toNat < cells) (c : UInt8) :
    (s.interpretByte c).Finishes s.adapter.InBuffer fun s' =>
      ∃ pos, s' = s.moveTo pos ∧ pos < cells + columns ∧
        scrolled pos = scrolled (moved s.cursor.toNat c) := by
  have hmoved := moved_lt h c
  have hscrolled := scrolled_moved_lt h c
  unfold interpretByte
  unfold moved at hmoved hscrolled ⊢
  by_cases hback : c = 0x08
  · simp only [if_pos hback] at hmoved ⊢
    exact finishes_mono (backspace_moves h) fun _ hs' => ⟨_, hs', hmoved, rfl⟩
  simp only [if_neg hback] at hmoved hscrolled ⊢
  by_cases hline : c = 0x0A
  · simp only [if_pos hline] at hmoved ⊢
    exact finishes_mono (newline_moves h) fun _ hs' => ⟨_, hs', hmoved, rfl⟩
  simp only [if_neg hline] at hmoved hscrolled ⊢
  by_cases hreturn : c = 0x0D
  · simp only [if_pos hreturn] at hmoved ⊢
    exact finishes_mono s.carriageReturn_moves fun _ hs' => ⟨_, hs', hmoved, rfl⟩
  simp only [if_neg hreturn] at hmoved hscrolled ⊢
  by_cases htab : c = 0x09
  · simp only [if_pos htab] at hscrolled ⊢
    -- The tab is on the screen by now, so scrolling has nothing left to do.
    refine finishes_mono (tab_moves h) fun _ hs' => ⟨_, hs', ?_, scrolled_of_lt hscrolled⟩
    exact Nat.lt_of_lt_of_le hscrolled (Nat.le_add_right _ _)
  simp only [if_neg htab] at hmoved ⊢
  exact finishes_mono (write_moves h c) fun _ hs' => ⟨_, hs', hmoved, rfl⟩

/-- A byte that is drawn, and scrolled if need be, takes the cursor where it belongs. -/
theorem drawn_after {s : Screen} (h : s.cursor.toNat < cells) (c : UInt8) :
    (s.interpretByte c >>= scrollIfNeeded).Finishes s.adapter.InBuffer fun s' =>
      s' = s.after c := by
  refine finishes_bind (finishes_mono (interpretByte_moves h c) ?_)
  rintro _ ⟨pos, rfl, hpos, hscrolled⟩
  have hcursor : (s.moveTo pos).cursor.toNat = pos :=
    moveTo_cursor s (Nat.lt_of_lt_of_le hpos (by decide))
  refine finishes_mono (scrollIfNeeded_moves (s.moveTo pos)) fun s₂ hs₂ => ?_
  rw [hs₂, hcursor, hscrolled]
  rfl

end Screen

end KernelConsole
