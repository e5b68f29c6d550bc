import KernelConsole.Log.Reporting
import KernelConsole.Screen.Cell

/-!
# Text Screen

A screen of 25 rows of 80 cells in the memory of a text adapter, and the cursor
that the adapter's cathode ray tube controller shows.

There are two adapters, each with its own memory and its own controller. The
colour adapter is probed by writing a cell and reading it back; if the cell does
not hold what was written, the screen is the monochrome one. The cursor starts
where the hardware has it.

A character is written at the cursor, which then moves on; five bytes move it
instead. A cursor that leaves the last row scrolls the screen up by one row. The
screen keeps no copy of the cells, so scrolling reads them back from the
adapter.

The cursor is sixteen bits, and a step that would leave them halts instead of
wrapping.

## Main definitions

* `Screen`: The adapter in use, the cursor, and the colours.
* `Screen.init`: Finding the adapter and its cursor.
* `Screen.putChar`: Writing one character.
* `Screen.clear`: Blanking the screen.
-/

namespace KernelConsole

/-- The state of the text screen. -/
structure Screen where
  /-- The adapter in use. -/
  adapter : Adapter := .color
  /-- The cell that the next character goes to. -/
  cursor : UInt16 := 0
  /-- How the next character is drawn. -/
  colors : Colors := {}
deriving DecidableEq

namespace Screen

/-- Rows of the screen. -/
def rows : Nat := 25

/-- Cells of a row. -/
def columns : Nat := 80

/-- Cells of the screen. -/
def cells : Nat := rows * columns

/-- Distance between tab stops. -/
def tabWidth : Nat := 8

/-- What is written to find out whether the colour adapter has memory. -/
def probeCell : UInt16 := 0xA55A

/-- The number of the controller's register for the high byte of the cursor. -/
def cursorHigh : UInt8 := 14

/-- The number of the controller's register for the low byte of the cursor. -/
def cursorLow : UInt8 := 15

/-- Moves the cursor forward. -/
def advance (s : Screen) (n : Nat) : Io Screen :=
  if s.cursor.toNat + n < UInt16.size then
    pure { s with cursor := s.cursor + n.toUInt16 }
  else
    .halt .cursorRange

/-- Moves the cursor back. -/
def retreat (s : Screen) (n : Nat) : Io Screen :=
  if n ≤ s.cursor.toNat then
    pure { s with cursor := s.cursor - n.toUInt16 }
  else
    .halt .cursorRange

/-- The column of the cursor. -/
def column (s : Screen) : Nat := s.cursor.toNat % columns

/-- Writes a character to a cell. -/
def writeAt (s : Screen) (pos : Nat) (c : UInt8) : Io Unit :=
  writeCell (s.adapter.cellAddress pos) (s.colors.cell c)

/-- Writes a character to the cell at the cursor. -/
def writeHere (s : Screen) (c : UInt8) : Io Unit :=
  s.writeAt s.cursor.toNat c

/-- Copies a cell from the row below. -/
def pullUp (s : Screen) (pos : Nat) : Io Unit := do
  let cell ← readCell (s.adapter.cellAddress (pos + columns))
  writeCell (s.adapter.cellAddress pos) cell

/-- Scrolls up by one row if the cursor has left the screen. -/
def scrollIfNeeded (s : Screen) : Io Screen :=
  if s.cursor.toNat < cells then
    pure s
  else do
    (List.range (cells - columns)).forM s.pullUp
    (List.range' (cells - columns) columns).forM fun pos => s.writeAt pos 0x20
    s.retreat columns

/-- Shows the cursor on the controller. -/
def syncCursor (s : Screen) : Io Unit := do
  writeReg (.crtcIndex s.adapter) cursorHigh
  writeReg (.crtcData s.adapter) (s.cursor >>> 8).toUInt8
  writeReg (.crtcIndex s.adapter) cursorLow
  writeReg (.crtcData s.adapter) s.cursor.toUInt8

/-- Moves back one cell and blanks it, unless the cursor is at the first one. -/
def backspace (s : Screen) : Io Screen :=
  if s.cursor = 0 then
    pure s
  else do
    let s ← s.retreat 1
    s.writeHere 0x20
    pure s

/-- Moves to the start of the next row. -/
def newline (s : Screen) : Io Screen := do
  let s ← s.advance columns
  s.retreat s.column

/-- Moves to the start of the row. -/
def carriageReturn (s : Screen) : Io Screen :=
  s.retreat s.column

/-- Writes a character and moves on. -/
def write (s : Screen) (c : UInt8) : Io Screen := do
  s.writeHere c
  s.advance 1

/-- Writes spaces, scrolling whenever the cursor leaves the screen. -/
def writeSpaces : Nat → Screen → Io Screen
  | 0, s => pure s
  | n + 1, s => do
      let s ← s.write 0x20
      let s ← s.scrollIfNeeded
      writeSpaces n s

/-- Writes spaces up to the next tab stop. -/
def tab (s : Screen) : Io Screen :=
  writeSpaces (tabWidth - s.column % tabWidth) s

/-- What a byte does before scrolling: five bytes move the cursor, and the others
    are written. -/
def interpretByte (s : Screen) (c : UInt8) : Io Screen :=
  if c = 0x08 then s.backspace
  else if c = 0x0A then s.newline
  else if c = 0x0D then s.carriageReturn
  else if c = 0x09 then s.tab
  else s.write c

/-- Writes one character. -/
def putChar (s : Screen) (c : UInt8) : Io Screen := do
  let s ← s.interpretByte c
  let s ← s.scrollIfNeeded
  s.syncCursor
  pure s

/-- Blanks the screen and moves to the first cell. -/
def clear (s : Screen) : Io Screen := do
  (List.range cells).forM fun pos => s.writeAt pos 0x20
  let s := { s with cursor := 0 }
  s.syncCursor
  pure s

/-- Chooses how the next characters are drawn. -/
def setColor (s : Screen) (foreground background : Color) : Screen :=
  { s with colors := { foreground, background } }

/-- Finds out which adapter is there. The cell that is probed gets its contents
    back if the colour adapter answers. -/
def probe : Io Adapter := do
  let was ← readCell Adapter.color.buffer
  writeCell Adapter.color.buffer probeCell
  let now ← readCell Adapter.color.buffer
  if now = probeCell then do
    writeCell Adapter.color.buffer was
    pure .color
  else
    pure .monochrome

/-- The cursor that the controller of an adapter shows. -/
def hardwareCursor (a : Adapter) : Io UInt16 := do
  writeReg (.crtcIndex a) cursorHigh
  let high ← readReg (.crtcData a)
  writeReg (.crtcIndex a) cursorLow
  let low ← readReg (.crtcData a)
  pure (high.toUInt16 <<< 8 ||| low.toUInt16)

/-- Finds the adapter and takes over its cursor, which is moved to the last cell
    if it is beyond the screen. -/
def init (s : Screen) : LoggedIo Screen := do
  let adapter ← probe
  report .debug "pc_console::display" ("text display: " ++ adapter.name ++ " adapter")
  let pos ← hardwareCursor adapter
  pure { s with adapter, cursor := min pos (cells - 1).toUInt16 }

end Screen

end KernelConsole
