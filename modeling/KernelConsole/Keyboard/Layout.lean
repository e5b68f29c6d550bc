import KernelConsole.Keyboard.Event
import KernelConsole.Keyboard.Modifiers

/-!
# Keyboard Layouts

What each key of a US keyboard stands for, alone, with shift, and with control.

A key is named by its press code in scan code set 1. Extended keys, which send a
prefix first, take the same code with the top bit set. The codes up to `0x53`
are dense and listed in order; the extended ones are few and listed by code.
Zero is an empty place.

Control maps a letter to its control code by taking `@` away from it, which for
the slash goes below zero and wraps to `0xEF`.

## Main definitions

* `Layout`: What the keys stand for.
* `Layout.plain`, `Layout.shifted`, `Layout.control`: The three layouts.
* `Layout.select`: The layout that a set of modifiers selects.
* `heldBy`, `toggledBy`: The modifiers that a key holds or toggles.
-/

namespace KernelConsole

/-- What the keys stand for: the plain keys by code, and the extended ones. -/
structure Layout where
  /-- The plain keys, from code zero up. -/
  plainKeys : List UInt8
  /-- The extended keys with their codes. -/
  extendedKeys : List (UInt8 × UInt8)

namespace Layout

/-- What a key stands for, zero if it is not in the layout. -/
def legend (layout : Layout) (key : UInt8) : UInt8 :=
  match layout.extendedKeys.lookup key with
  | some c => c
  | none => layout.plainKeys.getD key.toNat 0

/-- The byte of an ASCII character. -/
def ascii (c : Char) : UInt8 := c.toUInt8

/-- The control code of a character: its distance from `@`, wrapping below. -/
def controlCode (c : Char) : UInt8 := ascii c - ascii '@'

/-- The extended keys that have no character, which are the same in every
    layout. -/
def navigation : List (UInt8 × UInt8) :=
  [(0xC7, VirtualKey.home.code), (0xC8, VirtualKey.up.code), (0xC9, VirtualKey.pageUp.code),
   (0xCB, VirtualKey.left.code), (0xCD, VirtualKey.right.code),
   (0xCF, VirtualKey.endOfLine.code), (0xD0, VirtualKey.down.code),
   (0xD1, VirtualKey.pageDown.code), (0xD2, VirtualKey.insert.code),
   (0xD3, VirtualKey.delete.code)]

/-- The extended keys without control: enter and divide on the key pad, then
    navigation. -/
def extendedPlain : List (UInt8 × UInt8) :=
  (0x9C, ascii '\n') :: (0xB5, ascii '/') :: navigation

/-- The key pad, codes `0x37` to `0x53`. Its digits do not look at the number
    lock. -/
def keyPad : List UInt8 :=
  [ascii '*',
   0, ascii ' ', 0, 0, 0, 0, 0, 0,
   0, 0, 0, 0, 0, 0, 0, ascii '7',
   ascii '8', ascii '9', ascii '-', ascii '4', ascii '5', ascii '6', ascii '+', ascii '1',
   ascii '2', ascii '3', ascii '0', ascii '.']

/-- The keys alone. -/
def plain : Layout where
  plainKeys :=
    [0, 0x1B] ++ ['1', '2', '3', '4', '5', '6', '7', '8', '9', '0', '-', '='].map ascii ++
    [0x08, 0x09] ++ ['q', 'w', 'e', 'r', 't', 'y', 'u', 'i', 'o', 'p', '[', ']'].map ascii ++
    [0x0A, 0] ++ ['a', 's', 'd', 'f', 'g', 'h', 'j', 'k', 'l', ';'].map ascii ++
    [0x27, 0x60, 0, 0x5C] ++ ['z', 'x', 'c', 'v', 'b', 'n', 'm', ',', '.', '/'].map ascii ++
    [0] ++ keyPad
  extendedKeys := extendedPlain

/-- The keys with shift. -/
def shifted : Layout where
  plainKeys :=
    [0, 0x1B] ++ ['!', '@', '#', '$', '%', '^', '&', '*', '(', ')', '_', '+'].map ascii ++
    [0x08, 0x09] ++ ['Q', 'W', 'E', 'R', 'T', 'Y', 'U', 'I', 'O', 'P'].map ascii ++
    [0x7B, 0x7D, 0x0A, 0] ++ ['A', 'S', 'D', 'F', 'G', 'H', 'J', 'K', 'L', ':'].map ascii ++
    [0x22, 0x7E, 0, 0x7C] ++ ['Z', 'X', 'C', 'V', 'B', 'N', 'M', '<', '>', '?'].map ascii ++
    [0] ++ keyPad
  extendedKeys := extendedPlain

/-- The keys with control, whether or not shift is held too. -/
def control : Layout where
  plainKeys :=
    List.replicate 16 0 ++
    ['Q', 'W', 'E', 'R', 'T', 'Y', 'U', 'I', 'O', 'P'].map controlCode ++
    [0, 0, 0x0D, 0] ++ ['A', 'S', 'D', 'F', 'G', 'H', 'J', 'K', 'L'].map controlCode ++
    [0, 0, 0, 0, 0x1C] ++ ['Z', 'X', 'C', 'V', 'B', 'N', 'M'].map controlCode ++
    [0, 0, controlCode '/']
  extendedKeys := (0x9C, 0x0D) :: (0xB5, controlCode '/') :: navigation

/-- The layout that a set of modifiers selects. Control wins over shift. -/
def select (modifiers : Modifiers) : Layout :=
  if modifiers.contains .control then control
  else if modifiers.contains .shift then shifted
  else plain

end Layout

/-- The modifiers that a key holds while it is down. -/
def heldBy (key : UInt8) : Modifiers :=
  if key = 0x1D ∨ key = 0x9D then .control
  else if key = 0x2A ∨ key = 0x36 then .shift
  else if key = 0x38 ∨ key = 0xB8 then .alt
  else .empty

/-- The modifiers that a press of a key toggles. -/
def toggledBy (key : UInt8) : Modifiers :=
  if key = 0x3A then .capsLock
  else if key = 0x45 then .numLock
  else if key = 0x46 then .scrollLock
  else .empty

end KernelConsole
