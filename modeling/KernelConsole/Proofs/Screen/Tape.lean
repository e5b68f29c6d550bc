import KernelConsole.Screen.Basic

/-!
# The Tape

What a screen is supposed to do, without a screen: a tape of cells that never
ends, a position where the next character goes, and a window of 25 rows that
follows the position. Nothing is ever copied. Scrolling moves the window one row
down the tape and blanks the row that comes into it.

What leaves the window stays on the tape, and what is in it is only changed by
writing. So a screen that shows the window loses nothing but its top row when it
scrolls, and never reorders, doubles or alters the rest.

## Main definitions

* `Tape`: Cells, a window, a position and colours.
* `Tape.InWindow`: The position is in the window.
* `Tape.scroll`: The window follows the position.
* `Tape.put`, `Tape.clear`: Writing a character, and blanking the window.
* `Screen.Op`: A use of a screen.
* `Tape.performAll`, `Screen.performAll`: Uses of a tape and of a screen.

## Theorems

* `Tape.scroll_of_lt`: The window stays while the position is in it.
* `Tape.inWindow_performAll`: The position never leaves the window.
* `Tape.fillTo_fillTo`: Blanking in two parts.
* `Tape.performAll_above`: What has left the window stays as it is.
-/

namespace KernelConsole

/-- Cells that never end, a window of them, and where the next character goes. -/
@[ext]
structure Tape where
  /-- The cells. -/
  cells : Nat → UInt16
  /-- The first cell of the window. -/
  base : Nat
  /-- The cell that the next character goes to. -/
  pos : Nat
  /-- How it is drawn. -/
  colors : Colors

namespace Tape

/-- The same tape with the cells from `start` up to `stop` blank. -/
def blank (t : Tape) (start stop : Nat) : Nat → UInt16 :=
  fun i => if start ≤ i ∧ i < stop then t.colors.blank else t.cells i

/-- Writes a character. -/
def store (t : Tape) (c : UInt8) : Tape :=
  { t with
    cells := fun i => if i = t.pos then t.colors.cell c else t.cells i
    pos := t.pos + 1 }

/-- Writes blanks up to `stop`. -/
def fillTo (t : Tape) (stop : Nat) : Tape :=
  { t with cells := t.blank t.pos stop, pos := stop }

/-- Moves back and blanks the cell, unless the position is the first of the
    window. -/
def backspace (t : Tape) : Tape :=
  if t.base < t.pos then
    { t with cells := t.blank (t.pos - 1) t.pos, pos := t.pos - 1 }
  else
    t

/-- Moves to the start of the next row. -/
def newline (t : Tape) : Tape :=
  { t with pos := (t.pos / Screen.columns + 1) * Screen.columns }

/-- Moves to the start of the row. -/
def carriageReturn (t : Tape) : Tape :=
  { t with pos := t.pos / Screen.columns * Screen.columns }

/-- Writes blanks up to the next tab stop. -/
def tab (t : Tape) : Tape :=
  t.fillTo ((t.pos / Screen.tabWidth + 1) * Screen.tabWidth)

/-- Moves the window down by one row, which comes in blank, once the position has
    left it. -/
def scroll (t : Tape) : Tape :=
  if t.base + Screen.cells ≤ t.pos then
    { t with
      cells := t.blank (t.base + Screen.cells) (t.base + Screen.cells + Screen.columns)
      base := t.base + Screen.columns }
  else
    t

/-- What a byte does before scrolling. -/
def interpretByte (t : Tape) (c : UInt8) : Tape :=
  if c = 0x08 then t.backspace
  else if c = 0x0A then t.newline
  else if c = 0x0D then t.carriageReturn
  else if c = 0x09 then t.tab
  else t.store c

/-- Writes one character. -/
def put (t : Tape) (c : UInt8) : Tape := (t.interpretByte c).scroll

/-- Blanks the window and moves to its first cell. -/
def clear (t : Tape) : Tape :=
  { t with cells := t.blank t.base (t.base + Screen.cells), pos := t.base }

end Tape

namespace Screen

/-- A use of a screen. -/
inductive Op
  /-- Writes a character. -/
  | put (c : UInt8)
  /-- Chooses the colours. -/
  | setColor (foreground background : Color)
  /-- Blanks the screen. -/
  | clear

/-- Does one thing to a screen. -/
def perform (s : Screen) : Op → Io Screen
  | .put c => s.putChar c
  | .setColor foreground background => pure (s.setColor foreground background)
  | .clear => s.clear

/-- Does one thing after the other. -/
def performAll (s : Screen) : List Op → Io Screen
  | [] => pure s
  | op :: rest => do
      let s ← s.perform op
      s.performAll rest

end Screen

namespace Tape

/-- The same thing done to a tape. -/
def perform (t : Tape) : Screen.Op → Tape
  | .put c => t.put c
  | .setColor foreground background => { t with colors := { foreground, background } }
  | .clear => t.clear

/-- The same things done to a tape. -/
def performAll (t : Tape) (ops : List Screen.Op) : Tape := ops.foldl perform t

/-- The window starts with a row, and the position is in it. -/
structure InWindow (t : Tape) : Prop where
  /-- The window starts with a row. -/
  aligned : Screen.columns ∣ t.base
  /-- The position is not above the window. -/
  le : t.base ≤ t.pos
  /-- The position is not below it. -/
  lt : t.pos < t.base + Screen.cells

theorem scroll_of_lt {t : Tape} (h : t.pos < t.base + Screen.cells) : t.scroll = t := by
  unfold scroll
  rw [if_neg (by omega)]

theorem scroll_of_le {t : Tape} (h : t.base + Screen.cells ≤ t.pos) :
    t.scroll = { t with
      cells := t.blank (t.base + Screen.cells) (t.base + Screen.cells + Screen.columns)
      base := t.base + Screen.columns } := by
  unfold scroll
  rw [if_pos h]

/-- Scrolling brings a position that is right behind the window back into it. -/
theorem inWindow_scroll {t : Tape} (haligned : Screen.columns ∣ t.base) (hle : t.base ≤ t.pos)
    (h : t.pos ≤ t.base + Screen.cells) : t.scroll.InWindow := by
  by_cases hleft : t.base + Screen.cells ≤ t.pos
  · -- a row further down the position is in the last row
    rw [scroll_of_le hleft]
    refine ⟨Nat.dvd_add haligned (Nat.dvd_refl _), ?_, ?_⟩
    · simp only [Screen.cells, Screen.rows, Screen.columns] at *
      omega
    · simp only [Screen.columns] at *
      omega
  · rw [scroll_of_lt (by omega)]
    exact ⟨haligned, hle, by omega⟩

theorem fillTo_pos (t : Tape) : t.fillTo t.pos = t := by
  ext i
  · simp only [fillTo, blank]
    rw [if_neg (by omega)]
  · rfl
  · rfl
  · rfl

/-- Blanking up to a place and then on to a later one is blanking up to that. -/
theorem fillTo_fillTo (t : Tape) {mid stop : Nat} (hmid : t.pos ≤ mid) (hstop : mid ≤ stop) :
    (t.fillTo mid).fillTo stop = t.fillTo stop := by
  ext i
  · simp only [fillTo, blank]
    by_cases hlate : mid ≤ i ∧ i < stop
    · -- blanked the second time
      rw [if_pos hlate, if_pos ⟨by omega, hlate.2⟩]
    · -- blanked the first time, or not at all
      rw [if_neg hlate]
      by_cases hearly : t.pos ≤ i ∧ i < mid
      · rw [if_pos hearly, if_pos ⟨hearly.1, by omega⟩]
      · rw [if_neg hearly, if_neg (by omega)]
  · rfl
  · rfl
  · rfl

/-- A space is a blank, so writing one is filling up to the next cell. So a tab is its spaces
    one by one. -/
theorem store_space (t : Tape) : t.store 0x20 = t.fillTo (t.pos + 1) := by
  ext i
  · simp only [store, fillTo, blank]
    by_cases hhere : i = t.pos
    · rw [if_pos hhere, if_pos (by omega)]
      rfl
    · rw [if_neg hhere, if_neg (by omega)]
  · rfl
  · rfl
  · rfl

/-- A tab stop is a multiple of the tab width, and not beyond the row. -/
theorem tab_le {t : Tape} (ht : t.InWindow) :
    (t.pos / Screen.tabWidth + 1) * Screen.tabWidth ≤ t.base + Screen.cells := by
  rcases ht with ⟨haligned, hle, hlt⟩
  rcases haligned with ⟨row, hrow⟩
  -- The tab width divides that of a row, so the end of the window is a tab stop.
  simp only [Screen.cells, Screen.rows, Screen.columns, Screen.tabWidth] at *
  omega

/-- Until it scrolls, a byte leaves the window and all above it, and puts the
    position in the window or right behind it. -/
theorem interpretByte_window {t : Tape} (ht : t.InWindow) (c : UInt8) :
    (t.interpretByte c).base = t.base ∧ t.base ≤ (t.interpretByte c).pos ∧
      (t.interpretByte c).pos ≤ t.base + Screen.cells ∧
      ∀ i < t.base, (t.interpretByte c).cells i = t.cells i := by
  have htab := tab_le ht
  rcases ht with ⟨haligned, hle, hlt⟩
  rcases haligned with ⟨row, hrow⟩
  unfold interpretByte
  -- The five kinds of bytes, in the order in which they are told apart.
  by_cases hback : c = 0x08
  · rw [if_pos hback]
    unfold backspace
    by_cases hfirst : t.base < t.pos
    · rw [if_pos hfirst]
      refine ⟨rfl, by simp only; omega, by simp only; omega, fun i hi => ?_⟩
      simp only [blank]
      rw [if_neg (by omega)]
    · rw [if_neg hfirst]
      exact ⟨rfl, hle, by omega, fun _ _ => rfl⟩
  rw [if_neg hback]
  by_cases hline : c = 0x0A
  · rw [if_pos hline]
    refine ⟨rfl, ?_, ?_, fun _ _ => rfl⟩
    all_goals
      simp only [newline, Screen.cells, Screen.rows, Screen.columns] at *
      omega
  rw [if_neg hline]
  by_cases hreturn : c = 0x0D
  · rw [if_pos hreturn]
    refine ⟨rfl, ?_, ?_, fun _ _ => rfl⟩
    all_goals
      simp only [carriageReturn, Screen.cells, Screen.rows, Screen.columns] at *
      omega
  rw [if_neg hreturn]
  by_cases htabbed : c = 0x09
  · rw [if_pos htabbed]
    refine ⟨rfl, ?_, htab, fun i hi => ?_⟩
    · simp only [tab, fillTo, Screen.tabWidth]
      omega
    · simp only [tab, fillTo, blank]
      rw [if_neg (by omega)]
  rw [if_neg htabbed]
  refine ⟨rfl, by simp only [store]; omega, by simp only [store]; omega, fun i hi => ?_⟩
  simp only [store]
  rw [if_neg (by omega)]

/-- One use keeps the position in the window. -/
theorem inWindow_perform {t : Tape} (ht : t.InWindow) (op : Screen.Op) :
    (t.perform op).InWindow := by
  cases op with
  | put c =>
      rcases interpretByte_window ht c with ⟨hbase, hle, hlt, _⟩
      exact inWindow_scroll (hbase ▸ ht.aligned) (hbase ▸ hle) (hbase ▸ hlt)
  | setColor foreground background => exact ⟨ht.aligned, ht.le, ht.lt⟩
  | clear =>
      refine ⟨ht.aligned, Nat.le_refl _, ?_⟩
      simp only [perform, clear, Screen.cells, Screen.rows, Screen.columns]
      omega

/-- One use moves the window only forward, and leaves what is above it. -/
theorem perform_above {t : Tape} (ht : t.InWindow) (op : Screen.Op) :
    t.base ≤ (t.perform op).base ∧ ∀ i < t.base, (t.perform op).cells i = t.cells i := by
  cases op with
  | put c =>
      rcases interpretByte_window ht c with ⟨hbase, _, _, habove⟩
      simp only [perform, put]
      by_cases hleft : (t.interpretByte c).base + Screen.cells ≤ (t.interpretByte c).pos
      · -- The row that comes in blank is below the window.
        rw [scroll_of_le hleft]
        refine ⟨by simp only; omega, fun i hi => ?_⟩
        simp only [blank]
        rw [if_neg (by omega)]
        exact habove i hi
      · rw [scroll_of_lt (by omega)]
        exact ⟨by omega, habove⟩
  | setColor foreground background => exact ⟨Nat.le_refl _, fun _ _ => rfl⟩
  | clear =>
      refine ⟨Nat.le_refl _, fun i hi => ?_⟩
      simp only [perform, clear, blank]
      rw [if_neg (by omega)]

theorem inWindow_performAll {t : Tape} (ht : t.InWindow) (ops : List Screen.Op) :
    (t.performAll ops).InWindow := by
  induction ops generalizing t with
  | nil => exact ht
  | cons op rest ih => exact ih (inWindow_perform ht op)

/-- Any uses leave what is above the window at the start, since the window only moves forward.
    -/
theorem performAll_above {t : Tape} (ht : t.InWindow) (ops : List Screen.Op) :
    t.base ≤ (t.performAll ops).base ∧ ∀ i < t.base, (t.performAll ops).cells i = t.cells i := by
  induction ops generalizing t with
  | nil => exact ⟨Nat.le_refl _, fun _ _ => rfl⟩
  | cons op rest ih =>
      rcases perform_above ht op with ⟨hbase, hcells⟩
      rcases ih (inWindow_perform ht op) with ⟨hbase', hcells'⟩
      -- What was above the window at first is above every later one.
      refine ⟨Nat.le_trans hbase hbase', fun i hi => ?_⟩
      exact (hcells' i (Nat.lt_of_lt_of_le hi hbase)).trans (hcells i hi)

end Tape

end KernelConsole
