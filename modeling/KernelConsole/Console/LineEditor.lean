import KernelConsole.Console.Basic

/-!
# Line Editor

Reading a line with echo. A printable byte is stored and echoed, backspace and
delete take back the last one, newline and carriage return end the line, and
every other byte is passed over.

The line is kept in a buffer of the caller's, whose length never changes. One
byte of it stays free for a terminator, so a line that fills the rest takes no
more bytes.

## Main definitions

* `LineBuffer`: A buffer with the length of the line in it.
* `LineBuffer.Edit`: What a byte does to a line.
* `LineBuffer.editFor`: The edit that a byte asks for.
* `Console.edit`: Doing the edit and echoing it.
* `Console.readLine`: Reading a line.
-/

namespace KernelConsole

/-- A buffer whose first bytes hold a line. -/
structure LineBuffer where
  /-- The buffer. -/
  bytes : Array UInt8
  /-- How many bytes of it are the line. -/
  length : Nat := 0
  /-- The line fits. -/
  length_le : length ≤ bytes.size := by omega
deriving DecidableEq

namespace LineBuffer

/-- A buffer with an empty line in it. -/
def ofBytes (bytes : Array UInt8) : LineBuffer where
  bytes

/-- The line. -/
def line (b : LineBuffer) : List UInt8 :=
  b.bytes.toList.take b.length

/-- There is room for another byte and the terminator. -/
def HasRoom (b : LineBuffer) : Prop :=
  b.length + 1 < b.bytes.size

instance (b : LineBuffer) : Decidable b.HasRoom :=
  inferInstanceAs (Decidable (_ < _))

/-- Adds a byte to the line. -/
def append (b : LineBuffer) (byte : UInt8) (h : b.HasRoom) : LineBuffer where
  bytes := b.bytes.set b.length byte (by unfold HasRoom at h; omega)
  length := b.length + 1
  length_le := by unfold HasRoom at h; simp only [Array.size_set]; omega

/-- Takes back the last byte of the line. The buffer keeps it. -/
def erase (b : LineBuffer) : LineBuffer where
  bytes := b.bytes
  length := b.length - 1
  length_le := Nat.le_trans (Nat.sub_le _ _) b.length_le

/-- What a byte does to a line. -/
inductive Edit (b : LineBuffer)
  /-- Takes back the last byte. -/
  | erase
  /-- Ends the line. -/
  | finish
  /-- Adds the byte. -/
  | append (room : b.HasRoom)
  /-- Does nothing. -/
  | ignore

/-- The byte erases: backspace or delete. -/
def isErase (byte : UInt8) : Bool := byte == 0x08 || byte == 0x7F

/-- The byte ends a line: newline or carriage return. -/
def isEnd (byte : UInt8) : Bool := byte == 0x0A || byte == 0x0D

/-- The byte is a printable ASCII character. -/
def isPrintable (byte : UInt8) : Bool := 0x20 ≤ byte && byte < 0x7F

/-- The edit that a byte asks for. -/
def editFor (b : LineBuffer) (byte : UInt8) : b.Edit :=
  if isErase byte && 0 < b.length then .erase
  else if isEnd byte then .finish
  else if h : isPrintable byte = true ∧ b.HasRoom then .append h.2
  else .ignore

end LineBuffer

namespace Console

/-- Edits a line by a byte and echoes what that did. Ends with `inr` when the line
    has ended. -/
def edit (c : Console) (b : LineBuffer) (byte : UInt8) :
    Io ((Console × LineBuffer) ⊕ (Console × LineBuffer)) :=
  match b.editFor byte with
  | .erase => do
      let c ← c.output 0x08
      pure (.inl (c, b.erase))
  | .finish => do
      let c ← c.output 0x0A
      pure (.inr (c, b))
  | .append room => do
      let c ← c.output byte
      pure (.inl (c, b.append byte room))
  | .ignore => pure (.inl (c, b))

/-- Reads a byte and edits the line by it. -/
def editStep : Console × LineBuffer →
    LoggedIo ((Console × LineBuffer) ⊕ (Console × LineBuffer))
  | (c, b) => do
    let (byte, c) ← c.blockingRead
    c.edit b byte

/-- Writes a prompt, if there is one. -/
def writePrompt (c : Console) : Option String → Io Console
  | some text => c.writeText text
  | none => pure c

/-- Reads a line into a buffer, after a prompt, and returns the buffer with the
    length of the line. -/
def readLine (c : Console) (prompt : Option String) (buffer : Array UInt8) :
    LoggedIo (LineBuffer × Console) := do
  let c ← c.writePrompt prompt
  let (c, b) ← .iterate editStep (c, LineBuffer.ofBytes buffer)
  pure (b, c)

end Console

end KernelConsole
