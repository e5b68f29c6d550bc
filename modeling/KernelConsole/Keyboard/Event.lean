/-!
# Key Events

What a key stroke means to a reader of the console: a character, a key that has
none, or nothing.

Keys without a character travel in the same byte stream as characters. They take
the codes from `0xE0` up, above the seven-bit range, so a reader can tell them
apart from text without a second channel. Zero stands for nothing at all.

## Main definitions

* `VirtualKey`: The keys that have no character, with their names.
* `VirtualKey.code`, `VirtualKey.ofCode?`: Their bytes in the stream.
* `KeyEvent`: The meaning of one byte from the keyboard.
* `KeyEvent.ofCode`, `KeyEvent.byte?`: From and to the byte stream.
-/

namespace KernelConsole

/-- A key that moves or edits and has no character. -/
inductive VirtualKey
  | home
  | endOfLine
  | up
  | down
  | left
  | right
  | pageUp
  | pageDown
  | insert
  | delete
deriving DecidableEq

namespace VirtualKey

/-- The byte of a key in the input stream. -/
def code : VirtualKey → UInt8
  | home => 0xE0
  | endOfLine => 0xE1
  | up => 0xE2
  | down => 0xE3
  | left => 0xE4
  | right => 0xE5
  | pageUp => 0xE6
  | pageDown => 0xE7
  | insert => 0xE8
  | delete => 0xE9

/-- The name of a key. -/
def name : VirtualKey → String
  | home => "Home"
  | endOfLine => "End"
  | up => "Up"
  | down => "Down"
  | left => "Left"
  | right => "Right"
  | pageUp => "PageUp"
  | pageDown => "PageDown"
  | insert => "Insert"
  | delete => "Delete"

/-- Every key, in the order of the codes. -/
def all : List VirtualKey :=
  [home, endOfLine, up, down, left, right, pageUp, pageDown, insert, delete]

/-- The key with a given byte. -/
def ofCode? (c : UInt8) : Option VirtualKey :=
  all.find? fun key => key.code == c

end VirtualKey

/-- What one byte from the keyboard means. -/
inductive KeyEvent
  /-- A character, a control code, or another byte of the layout. -/
  | character (c : UInt8)
  /-- A key without a character. -/
  | key (k : VirtualKey)
  /-- Nothing to pass on. -/
  | silent
deriving DecidableEq

namespace KeyEvent

/-- The meaning of a byte of a layout, where zero is an empty place. -/
def ofCode (c : UInt8) : KeyEvent :=
  if c = 0 then
    silent
  else match VirtualKey.ofCode? c with
    | some k => key k
    | none => character c

/-- The byte that goes into the input stream, if there is one. -/
def byte? : KeyEvent → Option UInt8
  | character c => some c
  | key k => some k.code
  | silent => none

end KeyEvent

end KernelConsole
