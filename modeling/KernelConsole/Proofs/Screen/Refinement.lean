import KernelConsole.Machine.Memory
import KernelConsole.Proofs.Returns
import KernelConsole.Proofs.Screen.Tape

/-!
# A Screen Shows a Tape

A screen on an adapter whose buffer is plain memory shows the window of a tape,
and does to it what the tape does: whatever was in the buffer, and whatever is
written, the buffer holds the window and the cursor is the position in it.

The screen copies rows over one another when it scrolls, cell by cell and from
the top, so a cell is always read before it is overwritten. A tab may leave the
screen in the middle, and is checked for scrolling at every space.

## Main definitions

* `PlainBuffer`: The buffer of an adapter is plain memory.
* `Screen.Shows`: A screen shows the window of a tape.

## Theorems

* `Screen.scrollIfNeeded_shows`: Scrolling.
* `Screen.writeSpaces_shows`: A tab.
* `Screen.interpretByte_shows`, `Screen.putChar_shows`: A character.
* `Screen.performAll_shows`: Any uses, one after the other.
* `Screen.terminal_refinement`: After every use, whatever was there before.
-/

namespace KernelConsole

open Prog

variable {σ : Type}

/-- The buffer of an adapter is plain memory: a cell reads as what it holds, a
    write changes the cell it goes to, and nothing else changes any. -/
structure PlainBuffer (bus : Bus σ) (a : Adapter) (contents : σ → Nat → UInt16) : Prop where
  /-- A cell reads as what it holds. -/
  read : ∀ m, ∀ i < Screen.cells, (bus (.readCell (a.cellAddress i)) m).1 = contents m i
  /-- A write changes the cell it goes to. -/
  write : ∀ m cell, ∀ i < Screen.cells, ∀ j < Screen.cells,
    contents (bus (.writeCell (a.cellAddress i) cell) m).2 j = if j = i then cell else contents m j
  /-- Nothing else changes any cell. -/
  other : ∀ m access, (∀ i < Screen.cells, ∀ cell, access ≠ .writeCell (a.cellAddress i) cell) →
    ∀ j < Screen.cells, contents (bus access m).2 j = contents m j

namespace Screen

variable {bus : Bus σ} {a : Adapter} {contents : σ → Nat → UInt16} {fuel : Nat}

/-- The screen uses the adapter, its cursor is the position in the window, and the
    buffer holds the window. -/
structure Shows (a : Adapter) (contents : σ → Nat → UInt16) (t : Tape) (s : Screen) (m : σ) :
    Prop where
  /-- The screen uses the adapter. -/
  adapter : s.adapter = a
  /-- The colours are the same. -/
  colors : t.colors = s.colors
  /-- The cursor is the position in the window. -/
  pos : t.pos = t.base + s.cursor.toNat
  /-- The buffer holds the window. -/
  window : ∀ i < cells, contents m i = t.cells (t.base + i)

theorem advance_eq {s : Screen} {n : Nat} (h : s.cursor.toNat + n < UInt16.size) :
    ∃ cursor : UInt16, cursor.toNat = s.cursor.toNat + n ∧
      s.advance n = pure { s with cursor } := by
  refine ⟨s.cursor + n.toUInt16, ?_, ?_⟩
  · have hn : n.toUInt16.toNat = n := UInt16.toNat_ofNat_of_lt' (by omega)
    rw [UInt16.toNat_add, hn]
    exact Nat.mod_eq_of_lt h
  · unfold advance
    rw [if_pos h]

theorem retreat_eq {s : Screen} {n : Nat} (h : n ≤ s.cursor.toNat) :
    ∃ cursor : UInt16, cursor.toNat = s.cursor.toNat - n ∧
      s.retreat n = pure { s with cursor } := by
  refine ⟨s.cursor - n.toUInt16, ?_, ?_⟩
  · have hlt := s.cursor.toNat_lt
    have hn : n.toUInt16.toNat = n := UInt16.toNat_ofNat_of_lt' (Nat.lt_of_le_of_lt h hlt)
    have hle : n.toUInt16 ≤ s.cursor := UInt16.le_iff_toNat_le.2 (by omega)
    rw [UInt16.toNat_sub_of_le _ _ hle, hn]
  · unfold retreat
    rw [if_pos h]

theorem writeAt_returns (hplain : PlainBuffer bus a contents) {s : Screen} (ha : s.adapter = a)
    {pos : Nat} (hpos : pos < cells) (c : UInt8) (m : σ) :
    (s.writeAt pos c).Returns bus.handler fuel m fun _ m' =>
      ∀ j < cells, contents m' j = if j = pos then s.colors.cell c else contents m j := by
  refine returns_access _ ?_
  rw [ha]
  exact fun j hj => hplain.write m _ pos hpos j hj

theorem pullUp_returns (hplain : PlainBuffer bus a contents) {s : Screen} (ha : s.adapter = a)
    {pos : Nat} (hpos : pos + columns < cells) (m : σ) :
    (s.pullUp pos).Returns bus.handler fuel m fun _ m' =>
      ∀ j < cells, contents m' j =
        if j = pos then contents m (pos + columns) else contents m j := by
  have hin : pos < cells := by omega
  refine returns_bind (returns_access _ (returns_access _ fun j hj => ?_))
  rw [ha, hplain.write _ _ pos hin j hj, hplain.read m _ hpos,
    hplain.other m (.readCell _) (by intros; exact nofun) j hj]

/-- The rows that stay move up by one. Until a cell's turn comes it still holds
    what it held. -/
theorem pullRows_returns (hplain : PlainBuffer bus a contents) {s : Screen} (ha : s.adapter = a)
    (m : σ) :
    ((List.range (cells - columns)).forM s.pullUp).Returns bus.handler fuel m fun _ m' =>
      ∀ j < cells, contents m' j =
        if j < cells - columns then contents m (j + columns) else contents m j := by
  rw [List.range_eq_range']
  refine returns_mono (returns_forM (fun k m' => ∀ j < cells, contents m' j =
    if j < k then contents m (j + columns) else contents m j) 0 (cells - columns)
    (fun j _ => (if_neg (Nat.not_lt_zero j)).symm) fun k m₁ _ hk hinv => ?_) fun _ m' hm' => ?_
  · have hnext : k + columns < cells := by omega
    have hbelow : contents m₁ (k + columns) = contents m (k + columns) := by
      rw [hinv _ hnext, if_neg (by omega)]
    refine returns_mono (pullUp_returns hplain ha hnext m₁) fun _ m₂ hm₂ j hj => ?_
    rw [hm₂ j hj]
    by_cases hhere : j = k
    · -- the cell whose turn it is: the one below it still holds what it held
      rw [if_pos hhere, if_pos (by omega), hhere, hbelow]
    · -- any other cell is left alone
      rw [if_neg hhere, hinv j hj]
      by_cases hdone : j < k
      · rw [if_pos hdone, if_pos (by omega)]
      · rw [if_neg hdone, if_neg (by omega)]
  · rw [Nat.zero_add] at hm'
    exact hm'

/-- Blanking a stretch of cells blanks these and no others, one after the other. -/
theorem blankCells_returns (hplain : PlainBuffer bus a contents) {s : Screen}
    (ha : s.adapter = a) (start n : Nat) (hn : start + n ≤ cells) (m : σ) :
    ((List.range' start n).forM fun pos => s.writeAt pos 0x20).Returns bus.handler fuel m
      fun _ m' => ∀ j < cells, contents m' j =
        if start ≤ j ∧ j < start + n then s.colors.blank else contents m j := by
  -- Up to cell `k` the stretch is blank already, and from there on it is as it was.
  refine returns_forM (fun k m' => ∀ j < cells, contents m' j =
    if start ≤ j ∧ j < k then s.colors.blank else contents m j) start n
    (fun j _ => (if_neg (by omega)).symm) fun k m₁ hle hlt hinv => ?_
  refine returns_mono (writeAt_returns hplain ha (by omega) 0x20 m₁) fun _ m₂ hm₂ j hj => ?_
  rw [hm₂ j hj, hinv j hj]
  by_cases hhere : j = k
  · rw [if_pos hhere, if_pos (by omega)]
    rfl
  · rw [if_neg hhere]
    by_cases hdone : start ≤ j ∧ j < k
    · rw [if_pos hdone, if_pos (by omega)]
    · rw [if_neg hdone, if_neg (by omega)]

/-- Scrolling shows the tape with its window moved. -/
theorem scrollIfNeeded_shows (hplain : PlainBuffer bus a contents) {t : Tape} {s : Screen} {m : σ}
    (hs : Shows a contents t s m) (hcursor : s.cursor.toNat ≤ cells) :
    s.scrollIfNeeded.Returns bus.handler fuel m fun s' m' => Shows a contents t.scroll s' m' := by
  have hpos := hs.pos
  unfold scrollIfNeeded
  by_cases hinside : s.cursor.toNat < cells
  · -- the cursor is on the screen, so the position is in the window
    rw [if_pos hinside, Tape.scroll_of_lt (by omega)]
    exact returns_pure hs
  · -- both have just left
    rw [if_neg hinside, Tape.scroll_of_le (by omega)]
    refine returns_bind (returns_mono (pullRows_returns hplain hs.adapter m) fun _ m₁ hm₁ => ?_)
    refine returns_bind (returns_mono (blankCells_returns hplain hs.adapter _ _ (by decide) m₁)
      fun _ m₂ hm₂ => ?_)
    obtain ⟨cursor, hto, hretreat⟩ := retreat_eq (s := s) (n := columns)
      (Nat.le_trans (by decide) (Nat.not_lt.1 hinside))
    rw [hretreat]
    refine returns_pure ⟨hs.adapter, hs.colors, ?_, fun i hi => ?_⟩
    · simp only [hto, cells, rows, columns] at *
      omega
    · rw [hm₂ i hi, hm₁ i hi]
      simp only [Tape.blank]
      by_cases hlast : i < cells - columns
      · -- a row that stays: the cell that was one row below
        rw [if_neg (by omega), if_pos hlast, if_neg (by omega), hs.window _ (by omega)]
        congr 1
        omega
      · -- the last row, which comes in blank
        rw [if_pos (by simp only [cells, rows, columns] at *; omega),
          if_pos (by simp only [cells, rows, columns] at *; omega), hs.colors]

/-- A character on the screen is one on the tape, before either scrolls. -/
theorem write_shows (hplain : PlainBuffer bus a contents) {t : Tape} {s : Screen} {m : σ}
    (hs : Shows a contents t s m) (hcursor : s.cursor.toNat < cells) (c : UInt8) :
    (s.write c).Returns bus.handler fuel m fun s' m' => Shows a contents (t.store c) s' m' := by
  have hpos := hs.pos
  refine returns_bind (returns_mono (writeAt_returns hplain hs.adapter hcursor c m)
    fun _ m₁ hm₁ => ?_)
  obtain ⟨cursor, hto, hadvance⟩ := advance_eq (s := s) (n := 1)
    (Nat.lt_of_le_of_lt hcursor (by decide))
  rw [hadvance]
  refine returns_pure ⟨hs.adapter, hs.colors, ?_, fun i hi => ?_⟩
  · simp only [Tape.store]
    omega
  · rw [hm₁ i hi]
    simp only [Tape.store]
    -- The cell of the cursor is that of the position, and any other cell is the same on both.
    by_cases hhere : i = s.cursor.toNat
    · rw [if_pos hhere, if_pos (by omega), hs.colors]
    · rw [if_neg hhere, if_neg (by omega), hs.window i hi]

/-- Spaces that stay in the window, or just fill it, show the tape filled and
    then scrolled: only the last of them can leave the screen. -/
theorem writeSpaces_shows (hplain : PlainBuffer bus a contents) (n : Nat) {t : Tape} {s : Screen}
    {m : σ} (hs : Shows a contents t s m) (ht : t.pos < t.base + cells)
    (hn : t.pos + n ≤ t.base + cells) :
    (writeSpaces n s).Returns bus.handler fuel m fun s' m' =>
      Shows a contents (t.fillTo (t.pos + n)).scroll s' m' := by
  induction n generalizing t s m with
  | zero =>
      rw [Nat.add_zero, Tape.fillTo_pos, Tape.scroll_of_lt ht]
      exact returns_pure hs
  | succ n ih =>
      have hpos := hs.pos
      refine returns_bind (returns_mono (write_shows hplain hs (by omega) 0x20)
        fun s₁ m₁ hs₁ => ?_)
      rw [Tape.store_space] at hs₁
      have hpos₁ := hs₁.pos
      simp only [Tape.fillTo] at hpos₁
      refine returns_bind (returns_mono (scrollIfNeeded_shows hplain hs₁ (by omega))
        fun s₂ m₂ hs₂ => ?_)
      by_cases hlast : n = 0
      · -- the last space, which may have scrolled
        rw [hlast] at hn ⊢
        exact returns_pure hs₂
      · -- not the last: the position is still in the window, so nothing has scrolled
        have hinside : (t.fillTo (t.pos + 1)).pos < (t.fillTo (t.pos + 1)).base + cells := by
          simp only [Tape.fillTo]
          omega
        rw [Tape.scroll_of_lt hinside] at hs₂
        have hrest := ih hs₂ hinside (by simp only [Tape.fillTo]; omega)
        rw [Tape.fillTo_fillTo _ (by omega) (by simp only [Tape.fillTo]; omega)] at hrest
        rw [show t.pos + (n + 1) = (t.fillTo (t.pos + 1)).pos + n by
          simp only [Tape.fillTo]; omega]
        exact hrest

/-- A backspace is one on the tape. The first cell of the screen is the first of the window,
    where both do nothing. -/
theorem backspace_shows (hplain : PlainBuffer bus a contents) {t : Tape} {s : Screen} {m : σ}
    (hs : Shows a contents t s m) (ht : t.InWindow) :
    s.backspace.Returns bus.handler fuel m fun s' m' => Shows a contents t.backspace s' m' := by
  have hpos := hs.pos
  have hlt := ht.lt
  unfold backspace Tape.backspace
  by_cases hfirst : s.cursor = 0
  · -- the first cell of the window: nothing moves
    rw [hfirst, UInt16.toNat_zero] at hpos
    rw [if_pos hfirst, if_neg (by omega)]
    exact returns_pure hs
  · have hne : s.cursor.toNat ≠ 0 := fun h => hfirst (UInt16.toNat_inj.1 h)
    rw [if_neg hfirst, if_pos (by omega)]
    rcases retreat_eq (s := s) (n := 1) (by omega) with ⟨cursor, hto, hretreat⟩
    rw [hretreat, pure_bind]
    refine returns_bind (returns_mono (writeAt_returns hplain hs.adapter (by simp only; omega)
      0x20 m) fun _ m₁ hm₁ => ?_)
    refine returns_pure ⟨hs.adapter, hs.colors, by simp only; omega, fun i hi => ?_⟩
    rw [hm₁ i hi]
    simp only [Tape.blank]
    -- As for a character, but the cell is blank and the one before the cursor.
    by_cases hhere : i = cursor.toNat
    · rw [if_pos hhere, if_pos (by omega), hs.colors]
      rfl
    · rw [if_neg hhere, if_neg (by omega), hs.window i hi]

/-- A new line is one on the tape. The screen goes down a row and then back to its start, which
    the tape does at once. -/
theorem newline_shows {t : Tape} {s : Screen} {m : σ} (hs : Shows a contents t s m)
    (ht : t.InWindow) :
    s.newline.Returns bus.handler fuel m fun s' m' => Shows a contents t.newline s' m' := by
  have hpos := hs.pos
  have hlt := ht.lt
  -- As the window starts with a row, the rows of the tape are those of the screen.
  rcases ht.aligned with ⟨row, hrow⟩
  have hroom : s.cursor.toNat + columns < UInt16.size := by
    simp only [cells, rows, columns, UInt16.size] at *
    omega
  rcases advance_eq hroom with ⟨below, hbelow, hadvance⟩
  obtain ⟨cursor, hto, hretreat⟩ := retreat_eq (s := { s with cursor := below })
    (n := below.toNat % columns) (Nat.mod_le _ _)
  unfold newline
  rw [hadvance, pure_bind]
  simp only [column, hretreat]
  refine returns_pure ⟨hs.adapter, hs.colors, ?_, hs.window⟩
  simp only [Tape.newline, columns] at *
  omega

/-- A carriage return is one on the tape. -/
theorem carriageReturn_shows {t : Tape} {s : Screen} {m : σ} (hs : Shows a contents t s m)
    (ht : t.InWindow) :
    s.carriageReturn.Returns bus.handler fuel m fun s' m' =>
      Shows a contents t.carriageReturn s' m' := by
  have hpos := hs.pos
  -- The window starts with a row, so the start of the row is the same on both.
  rcases ht.aligned with ⟨row, hrow⟩
  rcases retreat_eq (s := s) (n := s.column) (Nat.mod_le _ _) with ⟨cursor, hto, hretreat⟩
  unfold carriageReturn
  rw [hretreat]
  refine returns_pure ⟨hs.adapter, hs.colors, ?_, hs.window⟩
  simp only [Tape.carriageReturn, column, columns] at *
  omega

/-- A tab stop of the row is one of the tape, as the window starts with a row. -/
theorem tab_shows (hplain : PlainBuffer bus a contents) {t : Tape} {s : Screen} {m : σ}
    (hs : Shows a contents t s m) (ht : t.InWindow) :
    s.tab.Returns bus.handler fuel m fun s' m' => Shows a contents t.tab.scroll s' m' := by
  have hpos := hs.pos
  have hstop := Tape.tab_le ht
  rcases ht.aligned with ⟨row, hrow⟩
  have hnext : (t.pos / tabWidth + 1) * tabWidth =
      t.pos + (tabWidth - s.column % tabWidth) := by
    simp only [column, columns, tabWidth] at *
    omega
  unfold tab Tape.tab
  rw [hnext]
  exact writeSpaces_shows hplain _ hs ht.lt (hnext ▸ hstop)

/-- What a byte does before scrolling, up to scrolling: a tab has scrolled
    already if it had to. -/
theorem interpretByte_shows (hplain : PlainBuffer bus a contents) {t : Tape} {s : Screen} {m : σ}
    (hs : Shows a contents t s m) (ht : t.InWindow) (c : UInt8) :
    (s.interpretByte c).Returns bus.handler fuel m fun s' m' =>
      ∃ t', Shows a contents t' s' m' ∧ t'.pos ≤ t'.base + cells ∧ t'.scroll = t.put c := by
  rcases Tape.interpretByte_window ht c with ⟨hbase, hle, hlt, _⟩
  -- Unless it is a tab, a byte does to the screen what it does to the tape.
  have hsame : ∀ {s' : Screen} {m' : σ}, Shows a contents (t.interpretByte c) s' m' →
      ∃ t', Shows a contents t' s' m' ∧ t'.pos ≤ t'.base + cells ∧ t'.scroll = t.put c :=
    fun hs' => ⟨_, hs', hbase ▸ hlt, rfl⟩
  unfold interpretByte
  unfold Tape.interpretByte at hsame
  -- The bytes that move the cursor one after the other, and then characters.
  by_cases hback : c = 0x08
  · rw [if_pos hback] at hsame ⊢
    exact returns_mono (backspace_shows hplain hs ht) fun _ _ => hsame
  rw [if_neg hback] at hsame ⊢
  by_cases hline : c = 0x0A
  · rw [if_pos hline] at hsame ⊢
    exact returns_mono (newline_shows hs ht) fun _ _ => hsame
  rw [if_neg hline] at hsame ⊢
  by_cases hreturn : c = 0x0D
  · rw [if_pos hreturn] at hsame ⊢
    exact returns_mono (carriageReturn_shows hs ht) fun _ _ => hsame
  rw [if_neg hreturn] at hsame ⊢
  by_cases htab : c = 0x09
  · rw [if_pos htab]
    have hput : t.put c = t.tab.scroll := by
      unfold Tape.put Tape.interpretByte
      rw [if_neg hback, if_neg hline, if_neg hreturn, if_pos htab]
    have hstop := Tape.inWindow_perform ht (.put c)
    -- What the tab has scrolled to is in the window, so scrolling it once more does nothing.
    refine returns_mono (tab_shows hplain hs ht) fun s' m' hs' => ⟨_, hs', ?_, ?_⟩
    · rw [← hput]
      exact Nat.le_of_lt hstop.lt
    · rw [← hput]
      exact Tape.scroll_of_lt hstop.lt
  rw [if_neg htab] at hsame ⊢
  have hcursor : s.cursor.toNat < cells := by
    have hpos := hs.pos
    have hin := ht.lt
    omega
  exact returns_mono (write_shows hplain hs hcursor c) fun _ _ => hsame

/-- Showing the cursor writes to registers, and so to no cell. -/
theorem syncCursor_shows (hplain : PlainBuffer bus a contents) {t : Tape} {s : Screen} {m : σ}
    (hs : Shows a contents t s m) :
    s.syncCursor.Returns bus.handler fuel m fun _ m' => Shows a contents t s m' := by
  have hreg : ∀ (r : Register) (value : UInt8) (m : σ), Shows a contents t s m →
      (writeReg r value).Returns bus.handler fuel m fun _ m' => Shows a contents t s m' := by
    intro r value m hs
    refine returns_access _ ⟨hs.adapter, hs.colors, hs.pos, fun i hi => ?_⟩
    rw [hplain.other m (.writeReg r value) (by intros; exact nofun) i hi]
    exact hs.window i hi
  -- Four writes: each half of the cursor with its index before it.
  refine returns_bind (returns_mono (hreg _ _ m hs) fun _ m₁ hs₁ => ?_)
  refine returns_bind (returns_mono (hreg _ _ m₁ hs₁) fun _ m₂ hs₂ => ?_)
  refine returns_bind (returns_mono (hreg _ _ m₂ hs₂) fun _ m₃ hs₃ => ?_)
  exact hreg _ _ m₃ hs₃

theorem putChar_shows (hplain : PlainBuffer bus a contents) {t : Tape} {s : Screen} {m : σ}
    (hs : Shows a contents t s m) (ht : t.InWindow) (c : UInt8) :
    (s.putChar c).Returns bus.handler fuel m fun s' m' => Shows a contents (t.put c) s' m' := by
  refine returns_bind (returns_mono (interpretByte_shows hplain hs ht c)
    fun s₁ m₁ ⟨t', hs₁, hle, hscroll⟩ => ?_)
  have hpos₁ := hs₁.pos
  refine returns_bind (returns_mono (scrollIfNeeded_shows hplain hs₁ (by omega))
    fun s₂ m₂ hs₂ => ?_)
  rw [hscroll] at hs₂
  refine returns_bind (returns_mono (syncCursor_shows hplain hs₂) fun _ m₃ hs₃ => ?_)
  exact returns_pure hs₃

/-- Blanking the screen is blanking the window. -/
theorem clear_shows (hplain : PlainBuffer bus a contents) {t : Tape} {s : Screen} {m : σ}
    (hs : Shows a contents t s m) :
    s.clear.Returns bus.handler fuel m fun s' m' => Shows a contents t.clear s' m' := by
  unfold clear
  rw [List.range_eq_range']
  refine returns_bind (returns_mono (blankCells_returns hplain hs.adapter 0 cells (by omega) m)
    fun _ m₁ hm₁ => ?_)
  have hs₁ : Shows a contents t.clear { s with cursor := 0 } m₁ := by
    refine ⟨hs.adapter, hs.colors, rfl, fun i hi => ?_⟩
    rw [hm₁ i hi]
    simp only [Tape.clear, Tape.blank]
    rw [if_pos (by omega), if_pos (by omega), hs.colors]
  refine returns_bind (returns_mono (syncCursor_shows hplain hs₁) fun _ m₂ hs₂ => ?_)
  exact returns_pure hs₂

theorem perform_shows (hplain : PlainBuffer bus a contents) {t : Tape} {s : Screen} {m : σ}
    (hs : Shows a contents t s m) (ht : t.InWindow) (op : Op) :
    (s.perform op).Returns bus.handler fuel m fun s' m' =>
      Shows a contents (t.perform op) s' m' := by
  cases op with
  | put c => exact putChar_shows hplain hs ht c
  | setColor foreground background =>
      exact returns_pure ⟨hs.adapter, rfl, hs.pos, hs.window⟩
  | clear => exact clear_shows hplain hs

theorem performAll_shows (hplain : PlainBuffer bus a contents) (ops : List Op) {t : Tape}
    {s : Screen} {m : σ} (hs : Shows a contents t s m) (ht : t.InWindow) :
    (s.performAll ops).Returns bus.handler fuel m fun s' m' =>
      Shows a contents (t.performAll ops) s' m' := by
  induction ops generalizing t s m with
  | nil => exact returns_pure hs
  | cons op rest ih =>
      refine returns_bind (returns_mono (perform_shows hplain hs ht op) fun s₁ m₁ hs₁ => ?_)
      exact ih hs₁ (Tape.inWindow_perform ht op)

theorem performAll_append (s : Screen) (done rest : List Op) :
    s.performAll (done ++ rest) = s.performAll done >>= fun s => s.performAll rest := by
  induction done generalizing s with
  | nil => rfl
  | cons op done ih =>
      simp only [List.cons_append, performAll, ih]
      exact (LawfulMonad.bind_assoc _ _ _).symm

/-- Whatever is in the buffer and wherever the cursor is, any uses of a screen
    end, and after each of them the buffer holds the window of the tape, the
    cursor is the position in it, and what has left the window is as it was. -/
theorem terminal_refinement {s : Screen} {contents : σ → Nat → UInt16}
    (hplain : PlainBuffer bus s.adapter contents) (hcursor : s.cursor.toNat < cells) (m : σ)
    {t : Tape} (haligned : columns ∣ t.base) (hcolors : t.colors = s.colors)
    (hpos : t.pos = t.base + s.cursor.toNat)
    (hwindow : ∀ i < cells, contents m i = t.cells (t.base + i)) (fuel : Nat)
    (done rest : List Op) :
    ∃ s' m', (s.performAll done).run bus.handler fuel m = .ok (s', m') ∧
      (s.performAll (done ++ rest)).run bus.handler fuel m =
        (s'.performAll rest).run bus.handler fuel m' ∧
      (∀ i < cells, contents m' i = (t.performAll done).cells ((t.performAll done).base + i)) ∧
      (t.performAll done).pos = (t.performAll done).base + s'.cursor.toNat ∧
      s'.cursor.toNat < cells ∧
      t.base ≤ (t.performAll done).base ∧
      ∀ i < t.base, (t.performAll done).cells i = t.cells i := by
  have ht : t.InWindow := ⟨haligned, by omega, by omega⟩
  obtain ⟨s', m', hrun, hs'⟩ : (s.performAll done).Returns bus.handler fuel m _ :=
    performAll_shows hplain done ⟨rfl, hcolors, hpos, hwindow⟩ ht
  have hpos' := hs'.pos
  have hlt' := (Tape.inWindow_performAll ht done).lt
  rcases Tape.performAll_above ht done with ⟨hbase, habove⟩
  refine ⟨s', m', hrun, ?_, hs'.window, hpos', by omega, hbase, habove⟩
  -- A run of all uses is one of those that are done, and then one of the rest.
  rw [performAll_append, run_bind, hrun]
  rfl

/-- Hardware that is memory and nothing else. -/
def memoryBus : Bus Memory
  | .readReg _, m => (0, m)
  | .writeReg _ _, m => ((), m)
  | .readCell address, m => (m.read address, m)
  | .writeCell address cell, m => ((), m.write address cell)

/-- Memory is a plain buffer, for either adapter. -/
theorem plainBuffer_memoryBus (a : Adapter) :
    PlainBuffer memoryBus a fun m i => m.read (a.cellAddress i) where
  read _ _ _ := rfl
  write m cell i _ j _ := by
    simp only [memoryBus, Memory.read_write, Adapter.cellAddress]
    by_cases hsame : j = i
    · rw [if_pos hsame, if_pos (by omega)]
    · rw [if_neg hsame, if_neg (by omega)]
  other m access hother j hj := by
    cases access with
    | writeCell address cell =>
        have hne : address ≠ a.cellAddress j := fun h => hother j hj cell (h ▸ rfl)
        simp only [memoryBus, Memory.read_write, if_neg hne]
    | _ => rfl

/-- A letter in the last cell of the screen moves up with its row. -/
theorem terminal_refinement_last_cell :
    ∃ s' m', (({ cursor := 1999 } : Screen).performAll [.put 0x41]).run memoryBus.handler 0
        Memory.empty = .ok (s', m') ∧
      s'.cursor.toNat = 1920 ∧ m'.read (Adapter.color.cellAddress 1919) = 0x0741 := by
  obtain ⟨s', m', hrun, _, hwindow, hpos, _⟩ := terminal_refinement
    (s := { cursor := 1999 }) (t := ⟨fun _ => 0, 80, 2079, {}⟩)
    (plainBuffer_memoryBus _) (by decide) Memory.empty (by decide) rfl rfl
    (fun i _ => Memory.read_empty _) 0 [.put 0x41] []
  have hend : (Tape.performAll ⟨fun _ => 0, 80, 2079, {}⟩ [.put 0x41]).pos = 2080 ∧
      (Tape.performAll ⟨fun _ => 0, 80, 2079, {}⟩ [.put 0x41]).base = 160 := by decide
  have hcell : (Tape.performAll ⟨fun _ => 0, 80, 2079, {}⟩ [.put 0x41]).cells 2079 = 0x0741 := by
    decide
  refine ⟨s', m', hrun, by omega, ?_⟩
  rw [hwindow 1919 (by decide), hend.2]
  exact hcell

end Screen

end KernelConsole
