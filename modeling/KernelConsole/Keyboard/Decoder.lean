import KernelConsole.Keyboard.Layout

/-!
# Scan Code Decoding

The bytes of scan code set 1 arrive one at a time, and what a byte means hangs on
the ones before it: a prefix makes the next byte an extended key, a press of
shift changes what later keys stand for, a press of a lock toggles it.

The decoder keeps just that: the modifiers, among them whether a prefix is
pending, and whether control, alternate and delete have come together. A release
code is the press code with the top bit set, the same bit that marks an extended
key, so the release of an extended key already names its key and the release of a
plain one does once the bit is dropped.

## Main definitions

* `Decoder`: Modifiers and a pending reset.
* `Decoder.feed`: The meaning of one byte, and the next state.
* `Decoder.feedAll`: The meanings of a sequence of bytes.
* `Decoder.takeReset`: Whether a reset is pending, clearing it.
-/

namespace KernelConsole

/-- What the bytes so far leave behind. -/
structure Decoder where
  /-- The keys held, the locks, and whether a prefix is pending. -/
  modifiers : Modifiers := .empty
  /-- Control, alternate and delete have come together. -/
  resetRequested : Bool := false
deriving DecidableEq

namespace Decoder

/-- The prefix of an extended key. -/
def extendedPrefix : UInt8 := 0xE0

/-- The bit that a release has and a press has not. -/
def releaseBit : UInt8 := 0x80

/-- A byte is an ASCII letter. -/
def isLetter (c : UInt8) : Bool :=
  (0x41 ≤ c && c ≤ 0x5A) || (0x61 ≤ c && c ≤ 0x7A)

/-- A letter in the other case, and any other byte as it is. -/
def swapCase (c : UInt8) : UInt8 :=
  if isLetter c then c ^^^ 0x20 else c

/-- The byte that a key gives under a set of modifiers. -/
def keyByte (modifiers : Modifiers) (key : UInt8) : UInt8 :=
  let c := (Layout.select modifiers).legend key
  if modifiers.contains .capsLock then swapCase c else c

/-- A key is released: what it held is let go. -/
def release (d : Decoder) (key : UInt8) : Decoder :=
  { d with modifiers := d.modifiers.remove ((heldBy key).union .extended) }

/-- A key is pressed: what it holds is held, what it toggles is toggled, and the
    byte it gives under the result is its meaning. -/
def press (d : Decoder) (key : UInt8) : KeyEvent × Decoder :=
  let modifiers := (d.modifiers.remove .extended |>.union (heldBy key)).symmDiff (toggledBy key)
  let c := keyByte modifiers key
  let reset := c == VirtualKey.delete.code && modifiers.contains (.union .control .alt)
  (KeyEvent.ofCode c, { modifiers, resetRequested := d.resetRequested || reset })

/-- The meaning of one byte from the keyboard, and the next state. -/
def feed (d : Decoder) (scancode : UInt8) : KeyEvent × Decoder :=
  let pending := d.modifiers.contains .extended
  if scancode = extendedPrefix then
    (.silent, { d with modifiers := d.modifiers.union .extended })
  else if scancode &&& releaseBit ≠ 0 then
    (.silent, d.release (if pending then scancode else scancode &&& ~~~releaseBit))
  else
    d.press (if pending then scancode ||| releaseBit else scancode)

/-- The meanings of a sequence of bytes, and the state after them. -/
def feedAll (d : Decoder) : List UInt8 → List KeyEvent × Decoder
  | [] => ([], d)
  | scancode :: rest =>
      let (event, d) := d.feed scancode
      let (events, d) := d.feedAll rest
      (event :: events, d)

/-- Whether a reset is pending, and the state without it. -/
def takeReset (d : Decoder) : Bool × Decoder :=
  (d.resetRequested, { d with resetRequested := false })

end Decoder

end KernelConsole
